import ThreeAddress.Proofs.Lowering.Execution

set_option autoImplicit false

namespace ThreeAddress

universe u

variable {σ : Type u}

namespace Machine

open Lower

theorem named_last (program : Program) (distinct : (marks program.statements).Nodup) (line : Line)
    (statement : Statement) (label : SymbolId) (found : program.get? line = some statement)
    (names : statement.Names .label label) : program.LastNaming .label label line := by
  refine ⟨⟨statement, found, names⟩, ?_⟩
  intro later other after foundLater namesOther
  rw [← List.take_append_drop later program.statements, marks_append] at distinct
  have early : label ∈ marks (program.statements.take later) := by
    rw [mem_marks]
    refine ⟨statement, List.mem_of_getElem? (i := line) ?_, names⟩
    rw [List.getElem?_take_of_lt after]
    exact found
  have late : label ∈ marks (program.statements.drop later) := by
    rw [mem_marks]
    refine ⟨other, List.mem_of_getElem? (i := 0) ?_, namesOther⟩
    rw [List.getElem?_drop]
    exact foundLater
  exact List.disjoint_of_nodup_append distinct early late

theorem mark_last (program : Program) (distinct : (marks program.statements).Nodup) (line : Line)
    (label : SymbolRef) (found : program.get? line = some (mark label)) :
    program.LastNaming .label label.id line :=
  named_last program distinct line (mark label) label.id found ⟨rfl, rfl⟩

section Placed

variable {program : Program} (meaning : Interpretation σ)

theorem mark_runs (line : Line) (label : SymbolRef) (s : σ) (found : program.get? line = some (mark label)) :
    Runs program meaning line (line + 1) 1 (line, s) (line + 1, s) := by
  have moves := moves_on meaning line s (mark label) found (by simp [mark])
    (by simp [Interpretation.jumps, mark, Opcode.isConditionalJump])
  exact .step 0 _ _ _ (by lia) moves (.refl _)

theorem goto_runs (distinct : (marks program.statements).Nodup) (line target : Line) (label : SymbolRef)
    (s : σ) (found : program.get? line = some (goto label))
    (marked : program.get? target = some (mark label)) :
    Runs program meaning line (line + 1) 1 (line, s) (target, s) := by
  have moves := moves_to_label meaning line target s (goto label) label.id found
    (by simp [Interpretation.jumps, goto]) rfl (mark_last program distinct target label marked)
  exact .step 0 _ _ _ (by lia) moves (.refl _)

theorem conditional_jumps (jump : Statement) (s : σ) (conditional : jump.opcode.isConditionalJump = true) :
    meaning.jumps jump s = meaning.taken jump s ∧ meaning.effect jump s = s ∧ jump.opcode ≠ .ret := by
  unfold Interpretation.jumps Interpretation.effect
  cases opcode : jump.opcode <;> simp_all [Opcode.isConditionalJump, Opcode.isPlain]

section Test

variable (label : SymbolRef) (before after : Lowering) (code : List Statement) (jump : Statement)
  (tested : Tested label before after code jump) (placed : after.program.statements <+: program.statements)

include tested placed

theorem test_lines : Stands program before.program.size code ∧
    program.get? (before.program.size + code.length) = some jump ∧
    after.program.size = before.program.size + code.length + 1 := by
  have stands := stands_of_extends before after _ tested.emitted placed
  rw [stands_append, stands_single] at stands
  have lines := Lowering.extends_lines before after _ tested.emitted
  rw [List.length_append, List.length_singleton, ← Nat.add_assoc] at lines
  exact ⟨stands.1, stands.2, lines⟩

theorem test_runs (s : σ) (next : Line × σ)
    (moves : Moves program meaning (before.program.size + code.length, meaning.run code s) next) :
    Runs program meaning before.program.size after.program.size (code.length + 1) (before.program.size, s) next := by
  obtain ⟨stands, _, lines⟩ := test_lines label before after code jump tested placed
  have lead := runs_plain meaning before.program.size code stands tested.plain s
  exact runs_trans _ _ _ 1 _ _ _ (runs_widen _ _ _ _ (by lia) _ _ _ lead)
    (.step 0 _ _ _ (by lia) moves (.refl _))

theorem test_stays (s : σ) (stays : meaning.taken jump (meaning.run code s) = false) :
    Runs program meaning before.program.size after.program.size (code.length + 1) (before.program.size, s)
      (after.program.size, meaning.run code s) := by
  obtain ⟨_, stands, lines⟩ := test_lines label before after code jump tested placed
  obtain ⟨taken, effect, goesOn⟩ := conditional_jumps meaning jump (meaning.run code s) tested.conditional
  have moves := moves_on meaning (before.program.size + code.length) (meaning.run code s) jump stands goesOn
    (taken.trans stays)
  rw [effect, ← lines] at moves
  exact test_runs meaning label before after code jump tested placed s _ moves

theorem test_jumps (distinct : (marks program.statements).Nodup) (target : Line)
    (marked : program.get? target = some (mark label)) (s : σ)
    (jumps : meaning.taken jump (meaning.run code s) = true) :
    Runs program meaning before.program.size after.program.size (code.length + 1) (before.program.size, s)
      (target, meaning.run code s) := by
  obtain ⟨_, stands, _⟩ := test_lines label before after code jump tested placed
  obtain ⟨taken, _, _⟩ := conditional_jumps meaning jump (meaning.run code s) tested.conditional
  exact test_runs meaning label before after code jump tested placed s _
    (moves_to_label meaning (before.program.size + code.length) target (meaning.run code s) jump label.id
      stands (taken.trans jumps) tested.target (mark_last program distinct target label marked))

end Test

end Placed

section Layout

variable {program : Program}

theorem placed_before (before after : Lowering) (code : List Statement) (emitted : before.Extends after code)
    (placed : after.program.statements <+: program.statements) :
    before.program.statements <+: program.statements :=
  (emitted.program ▸ List.prefix_append _ code).trans placed

theorem single_line (before after : Lowering) (statement : Statement)
    (emitted : before.Extends after [statement]) (placed : after.program.statements <+: program.statements) :
    program.get? before.program.size = some statement ∧ after.program.size = before.program.size + 1 := by
  have stands := stands_of_extends before after _ emitted placed
  exact ⟨(stands_single _ _).mp stands, Lowering.extends_lines before after _ emitted⟩

theorem fresh_label_lines (before after : Lowering) (label : SymbolRef)
    (fresh : freshLabel before = .ok label after) : after.program.size = before.program.size :=
  Lowering.extends_lines before after [] (allocate_extends .label .void before after label fresh).1

variable (program)

structure ConditionalLayout (meaning : Interpretation σ) (code : List Statement) (jump : Statement)
    (state tested joined target after : Lowering) : Prop where
  ordered : state.program.size ≤ tested.program.size ∧ tested.program.size ≤ joined.program.size ∧
    joined.program.size ≤ target.program.size ∧ target.program.size ≤ after.program.size
  placed : joined.program.statements <+: program.statements
  enters : ∀ s, meaning.taken jump (meaning.run code s) = false → ∃ steps,
    Runs program meaning state.program.size after.program.size steps (state.program.size, s)
      (tested.program.size, meaning.run code s)
  turns : ∀ s, meaning.taken jump (meaning.run code s) = true → ∃ steps,
    Runs program meaning state.program.size after.program.size steps (state.program.size, s)
      (target.program.size, meaning.run code s)
  leaves : ∀ s, ∃ steps, Runs program meaning state.program.size after.program.size steps
    (joined.program.size, s) (after.program.size, s)

variable {program} (meaning : Interpretation σ) (distinct : (marks program.statements).Nodup)
  (condition : Node) (code : List Statement) (jump : Statement)

include distinct

theorem skipping_layout (otherwise : SymbolRef) (state labelled tested joined after : Lowering)
    (consequent : Node) (label : freshLabel state = .ok otherwise labelled)
    (tests : Tests condition otherwise labelled tested code jump)
    (lowered : statement consequent tested = .ok () joined)
    (close : emitLabel otherwise joined = .ok () after)
    (placed : after.program.statements <+: program.statements) :
    ConditionalLayout program meaning code jump state tested joined after after := by
  have start := fresh_label_lines state labelled otherwise label
  have check := tests_tested condition otherwise labelled tested code jump tests
  obtain ⟨inner, body⟩ := statement_fragment consequent tested joined lowered
  have closed := (emitted_extends (mark otherwise) joined after () close).1
  have placedJoined := placed_before joined after _ closed placed
  have placedTested := placed_before tested joined _ body.emitted placedJoined
  obtain ⟨marked, last⟩ := single_line joined after _ closed placed
  have lines := Lowering.extends_lines labelled tested _ check.emitted
  have bodyLines := Lowering.extends_lines tested joined _ body.emitted
  have leaves : ∀ s, Runs program meaning state.program.size after.program.size 1
      (joined.program.size, s) (after.program.size, s) := by
    intro s
    rw [last]
    exact runs_widen _ _ _ _ (by lia) 1 _ _ (mark_runs meaning joined.program.size otherwise s marked)
  refine ⟨by lia, placedJoined, ?_, ?_, fun s => ⟨1, leaves s⟩⟩
  · intro s stays
    rw [← start]
    exact ⟨_, runs_widen _ _ _ _ (by lia) _ _ _
      (test_stays meaning otherwise labelled tested code jump check placedTested s stays)⟩
  · intro s jumps
    have lead := test_jumps meaning otherwise labelled tested code jump check placedTested distinct
      joined.program.size marked s jumps
    rw [start] at lead
    exact ⟨_, runs_trans _ _ _ 1 _ _ _ (runs_widen _ _ _ _ (by lia) _ _ _ lead) (leaves _)⟩

theorem branching_layout (otherwise done : SymbolRef)
    (state labelled tested joined turned finished after : Lowering) (consequent alternative : Node)
    (label : freshLabel state = .ok otherwise labelled)
    (tests : Tests condition otherwise labelled tested code jump)
    (lowered : statement consequent tested = .ok () joined) (turn : Turns otherwise done joined turned)
    (other : statement alternative turned = .ok () finished)
    (close : emitLabel done finished = .ok () after)
    (placed : after.program.statements <+: program.statements) :
    ConditionalLayout program meaning code jump state tested joined turned after ∧
      finished.program.statements <+: program.statements ∧
      turned.program.size ≤ finished.program.size ∧ finished.program.size ≤ after.program.size ∧
      ∀ s, ∃ steps, Runs program meaning state.program.size after.program.size steps
        (finished.program.size, s) (after.program.size, s) := by
  have start := fresh_label_lines state labelled otherwise label
  have check := tests_tested condition otherwise labelled tested code jump tests
  obtain ⟨inner, body⟩ := statement_fragment consequent tested joined lowered
  obtain ⟨rest, second⟩ := statement_fragment alternative turned finished other
  have between := (turns_extends otherwise done joined turned turn).1
  have closed := (emitted_extends (mark done) finished after () close).1
  have placedFinished := placed_before finished after _ closed placed
  have placedTurned := placed_before turned finished _ second.emitted placedFinished
  have placedJoined := placed_before joined turned _ between placedTurned
  have placedTested := placed_before tested joined _ body.emitted placedJoined
  obtain ⟨markedDone, last⟩ := single_line finished after _ closed placed
  have middle := stands_of_extends joined turned _ between placedTurned
  have jumped : program.get? joined.program.size = some (goto done) := middle 0 _ rfl
  have marked : program.get? (joined.program.size + 1) = some (mark otherwise) := middle 1 _ rfl
  have lines := Lowering.extends_lines labelled tested _ check.emitted
  have bodyLines := Lowering.extends_lines tested joined _ body.emitted
  have turnLines : turned.program.size = joined.program.size + 2 :=
    Lowering.extends_lines joined turned _ between
  have restLines := Lowering.extends_lines turned finished _ second.emitted
  have closes : ∀ s, Runs program meaning state.program.size after.program.size 1
      (finished.program.size, s) (after.program.size, s) := by
    intro s
    rw [last]
    exact runs_widen _ _ _ _ (by lia) 1 _ _ (mark_runs meaning finished.program.size done s markedDone)
  refine ⟨⟨by lia, placedJoined, ?_, ?_, ?_⟩, placedFinished, by lia, by lia, fun s => ⟨1, closes s⟩⟩
  · intro s stays
    rw [← start]
    exact ⟨_, runs_widen _ _ _ _ (by lia) _ _ _
      (test_stays meaning otherwise labelled tested code jump check placedTested s stays)⟩
  · intro s jumps
    have lead := test_jumps meaning otherwise labelled tested code jump check placedTested distinct
      (joined.program.size + 1) marked s jumps
    rw [start] at lead
    have pass := mark_runs meaning (joined.program.size + 1) otherwise (meaning.run code s) marked
    rw [Nat.add_assoc, ← turnLines] at pass
    exact ⟨_, runs_trans _ _ _ 1 _ _ _ (runs_widen _ _ _ _ (by lia) _ _ _ lead)
      (runs_widen _ _ _ _ (by lia) 1 _ _ pass)⟩
  · intro s
    have across := goto_runs meaning distinct joined.program.size finished.program.size done s jumped markedDone
    exact ⟨_, runs_trans _ _ 1 1 _ _ _ (runs_widen _ _ _ _ (by lia) 1 _ _ across) (closes s)⟩

theorem conditional_layout (consequent : Node) (alternative : Option Node) (code : List Statement)
    (jump : Statement) (otherwise : SymbolRef) (state labelled tested joined after : Lowering)
    (label : freshLabel state = .ok otherwise labelled)
    (tests : Tests condition otherwise labelled tested code jump)
    (lowered : statement consequent tested = .ok () joined)
    (rest : Closes otherwise joined after alternative)
    (placed : after.program.statements <+: program.statements) :
    ∃ target, ConditionalLayout program meaning code jump state tested joined target after := by
  cases alternative with
  | none =>
      exact ⟨after, skipping_layout meaning distinct condition code jump otherwise state labelled tested
        joined after consequent label tests lowered rest placed⟩
  | some node =>
      obtain ⟨done, turned, finished, turns, loweredOther, close⟩ := rest
      exact ⟨turned, (branching_layout meaning distinct condition code jump otherwise done state labelled
        tested joined turned finished after consequent node label tests lowered turns loweredOther close
        placed).1⟩

end Layout

structure LoopLayout (program : Program) (meaning : Interpretation σ) (code : List Statement)
    (jump : Statement) (state tested ended after : Lowering) : Prop where
  ordered : state.program.size ≤ tested.program.size ∧ tested.program.size ≤ ended.program.size ∧
    ended.program.size < after.program.size
  placed : ended.program.statements <+: program.statements
  enters : ∀ s, meaning.taken jump (meaning.run code s) = false → ∃ steps,
    Runs program meaning state.program.size after.program.size steps (state.program.size, s)
      (tested.program.size, meaning.run code s)
  ends : ∀ s, meaning.taken jump (meaning.run code s) = true → ∃ steps,
    Runs program meaning state.program.size after.program.size steps (state.program.size, s)
      (after.program.size, meaning.run code s)
  repeats : ∀ s, Runs program meaning state.program.size after.program.size 1
    (ended.program.size, s) (state.program.size, s)

theorem loop_layout (program : Program) (meaning : Interpretation σ)
    (distinct : (marks program.statements).Nodup) (condition body : Node) (code : List Statement)
    (jump : Statement) (head done : SymbolRef) (state opened tested ended repeated after : Lowering)
    (opens : Opens head done state opened) (tests : Tests condition done opened tested code jump)
    (lowered : statement body tested = .ok () ended) (back : emitGoto head ended = .ok () repeated)
    (close : emitLabel done repeated = .ok () after)
    (placed : after.program.statements <+: program.statements) :
    LoopLayout program meaning code jump state tested ended after := by
  have start := (opens_extends head done state opened opens).1
  have check := tests_tested condition done opened tested code jump tests
  obtain ⟨inner, fragment⟩ := statement_fragment body tested ended lowered
  have jumped := (emitted_extends (goto head) ended repeated () back).1
  have closed := (emitted_extends (mark done) repeated after () close).1
  have placedRepeated := placed_before repeated after _ closed placed
  have placedEnded := placed_before ended repeated _ jumped placedRepeated
  have placedTested := placed_before tested ended _ fragment.emitted placedEnded
  have placedOpened := placed_before opened tested _ check.emitted placedTested
  obtain ⟨markedHead, openLines⟩ := single_line state opened _ start placedOpened
  obtain ⟨goes, backLines⟩ := single_line ended repeated _ jumped placedRepeated
  obtain ⟨markedDone, closeLines⟩ := single_line repeated after _ closed placed
  have lines := Lowering.extends_lines opened tested _ check.emitted
  have bodyLines := Lowering.extends_lines tested ended _ fragment.emitted
  have enter : ∀ s, Runs program meaning state.program.size after.program.size 1
      (state.program.size, s) (opened.program.size, s) := by
    intro s
    rw [openLines]
    exact runs_widen _ _ _ _ (by lia) 1 _ _ (mark_runs meaning state.program.size head s markedHead)
  refine ⟨by lia, placedEnded, ?_, ?_, ?_⟩
  · intro s stays
    have test := test_stays meaning done opened tested code jump check placedTested s stays
    exact ⟨_, runs_trans _ _ 1 _ _ _ _ (enter s) (runs_widen _ _ _ _ (by lia) _ _ _ test)⟩
  · intro s jumps
    have test := test_jumps meaning done opened tested code jump check placedTested distinct
      repeated.program.size markedDone s jumps
    have pass := mark_runs meaning repeated.program.size done (meaning.run code s) markedDone
    rw [← closeLines] at pass
    have lead := runs_trans _ _ 1 _ _ _ _ (enter s) (runs_widen _ _ _ _ (by lia) _ _ _ test)
    exact ⟨_, runs_trans _ _ _ 1 _ _ _ lead (runs_widen _ _ _ _ (by lia) 1 _ _ pass)⟩
  · intro s
    exact runs_widen _ _ _ _ (by lia) 1 _ _
      (goto_runs meaning distinct ended.program.size state.program.size head s goes markedHead)

end Machine

end ThreeAddress
