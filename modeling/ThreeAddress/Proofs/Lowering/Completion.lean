import ThreeAddress.Proofs.Lowering.Extents

set_option autoImplicit false

namespace ThreeAddress

/-- A return does not complete. A list does if all its items do, and a conditional with an
alternative if one of the branches does. All other statements may be left at their end. -/
def Node.completes : Node → Bool
  | .binary .conditional _ _ (.binary .branches _ consequent alternative) =>
    consequent.completes || alternative.completes
  | .binary .statementList _ first rest => first.completes && rest.completes
  | node => decide (node.kind ≠ .ret)

theorem Node.completes_construct (node : Node) :
    node.completes =
      match node.construct with
      | .plain => true
      | .ret _ => false
      | .sequence first rest => first.completes && rest.completes
      | .conditional _ consequent alternative =>
        alternative.elim true fun alternative => consequent.completes || alternative.completes
      | .loop _ _ => true := by
  fun_cases Node.construct node
  all_goals simp_all [Node.completes, Node.kind]

namespace Program

def Advances (program : Program) (line next : Line) : Prop :=
  (∃ statement, program.get? line = some statement ∧ statement.opcode ≠ .ret ∧ statement.opcode ≠ .goto ∧
    next = line + 1) ∨ program.JumpsTo line next

def Passes (program : Program) : Line → Line → Prop := Relation.ReflTransGen program.Advances

/-- Control that enters the lines at the first one stays inside. -/
def Sealed (program : Program) (low high : Line) : Prop :=
  ∃ inside : Line → Prop, inside low ∧ (∀ line, inside line → low ≤ line ∧ line < high) ∧
    ∀ line next, inside line → program.Advances line next → inside next

end Program

namespace Lower

def swayed (taken : Bool) : Interpretation Unit := ⟨fun _ s => s, fun _ _ => taken⟩

theorem moves_advance (program : Program) (meaning : Interpretation Unit) (here next : Line × Unit)
    (moves : Machine.Moves program meaning here next) : program.Advances here.1 next.1 := by
  obtain ⟨statement, found, goesOn, goes⟩ := moves
  by_cases jumps : meaning.jumps statement here.2 = true
  · rw [if_pos jumps] at goes
    obtain ⟨_, label, target, last⟩ := goes
    exact Or.inr ⟨statement, label, found, target, last⟩
  · rw [if_neg jumps] at goes
    refine Or.inl ⟨statement, found, goesOn, ?_, by rw [goes]⟩
    intro goto
    simp [Interpretation.jumps, goto] at jumps

theorem runs_passes (program : Program) (meaning : Interpretation Unit) (low high : Line) (steps : Nat)
    (a b : Line × Unit) (runs : Machine.Runs program meaning low high steps a b) : program.Passes a.1 b.1 := by
  induction runs with
  | refl here => exact .refl
  | step _ here next last _ moves _ ih => exact .head (moves_advance program meaning here next moves) ih

section Placed

variable {program : Program} (distinct : (marks program.statements).Nodup)

include distinct

theorem conditional_passes (condition consequent : Node) (alternative : Option Node) (otherwise : SymbolRef)
    (state labelled tested joined after : Lowering) (label : freshLabel state = .ok otherwise labelled)
    (test : jumpUnless condition otherwise labelled = .ok () tested)
    (lowered : statement consequent tested = .ok () joined) (closes : Closes otherwise joined after alternative)
    (placed : after.program.statements <+: program.statements)
    (consequentPasses : joined.program.statements <+: program.statements → consequent.completes = true →
      program.Passes tested.program.size joined.program.size)
    (alternativePasses : ∀ other ∈ alternative, ∀ turned finished, statement other turned = .ok () finished →
      finished.program.statements <+: program.statements → other.completes = true →
      program.Passes turned.program.size finished.program.size)
    (completes : alternative.elim true (fun other => consequent.completes || other.completes) = true) :
    program.Passes state.program.size after.program.size := by
  obtain ⟨code, jump, tests⟩ := jump_unless_tests condition otherwise labelled tested test
  cases alternative with
  | none =>
      have layout := Machine.skipping_layout (swayed true) distinct condition code jump otherwise state labelled tested
        joined after consequent label tests lowered closes placed
      obtain ⟨steps, runs⟩ := layout.turns () rfl
      exact runs_passes program _ _ _ steps _ _ runs
  | some other =>
      obtain ⟨done, turned, finished, turns, loweredOther, close⟩ := closes
      have layout := fun taken => Machine.branching_layout (swayed taken) distinct condition code jump otherwise done
        state labelled tested joined turned finished after consequent other label tests lowered turns loweredOther
        close placed
      obtain ⟨_, placedFinished, _, _, ends⟩ := layout true
      rcases Bool.or_eq_true_iff.mp completes with first | second
      · obtain ⟨_, enters⟩ := (layout false).1.enters () rfl
        obtain ⟨_, leaves⟩ := (layout false).1.leaves ()
        exact (runs_passes program _ _ _ _ _ _ enters).trans
          ((consequentPasses (layout false).1.placed first).trans (runs_passes program _ _ _ _ _ _ leaves))
      · obtain ⟨_, enters⟩ := (layout true).1.turns () rfl
        obtain ⟨_, leaves⟩ := ends ()
        exact (runs_passes program _ _ _ _ _ _ enters).trans
          ((alternativePasses other rfl turned finished loweredOther placedFinished second).trans
            (runs_passes program _ _ _ _ _ _ leaves))

theorem completes_passes (node : Node) (completes : node.completes = true) (state after : Lowering)
    (ran : statement node state = .ok () after) (placed : after.program.statements <+: program.statements) :
    program.Passes state.program.size after.program.size := by
  induction node using Node.construct_induction generalizing state after with
  | each node ih =>
      rw [Node.completes_construct] at completes
      cases shape : node.construct with
      | plain =>
          rw [statement_construct, shape] at ran
          obtain ⟨code, emitted, plain⟩ := simple_straight node state after () ran
          have stands := Machine.stands_of_extends state after code emitted placed
          rw [Lowering.extends_lines state after code emitted]
          exact runs_passes program _ _ _ _ _ _
            (Machine.runs_plain (swayed true) state.program.size code stands plain ())
      | ret value => simp [shape] at completes
      | sequence first rest =>
          rw [shape, Bool.and_eq_true] at completes
          obtain ⟨middle, early, late⟩ := sequence_stages node first rest shape state after ran
          obtain ⟨code, fragment⟩ := statement_fragment rest middle after late
          have placedMiddle := Machine.placed_before middle after code fragment.emitted placed
          exact (ih first (by simp [shape, Construct.parts]) completes.1 state middle early placedMiddle).trans
            (ih rest (by simp [shape, Construct.parts]) completes.2 middle after late placed)
      | conditional condition consequent alternative =>
          rw [shape] at completes
          obtain ⟨otherwise, labelled, tested, joined, label, test, lowered, closes⟩ :=
            conditional_stages node condition consequent alternative shape state after ran
          apply conditional_passes distinct condition consequent alternative otherwise state labelled tested joined
            after label test lowered closes placed _ _ completes
          · intro placedJoined completesFirst
            exact ih consequent (by simp [shape, Construct.parts]) completesFirst tested joined lowered placedJoined
          · intro other member turned finished loweredOther placedFinished completesOther
            exact ih other (by simp [shape, Construct.parts, Option.mem_def.mp member]) completesOther turned finished
              loweredOther placedFinished
      | loop condition body =>
          obtain ⟨head, done, opened, tested, ended, repeated, opens, test, lowered, back, close⟩ :=
            loop_stages node condition body shape state after ran
          obtain ⟨code, jump, tests⟩ := jump_unless_tests condition done opened tested test
          have layout := Machine.loop_layout program (swayed true) distinct condition body code jump head done state
            opened tested ended repeated after opens tests lowered back close placed
          obtain ⟨steps, runs⟩ := layout.ends () rfl
          exact runs_passes program _ _ _ steps _ _ runs

theorem fragment_advances (state after : Lowering) (code : List Statement) (fragment : Fragment state after code)
    (placed : after.program.statements <+: program.statements) (line next : Line)
    (above : state.program.size ≤ line) (below : line < after.program.size)
    (advances : program.Advances line next) : state.program.size ≤ next ∧ next ≤ after.program.size := by
  rcases advances with ⟨_, _, _, _, rfl⟩ | ⟨statement, label, found, jumps, last⟩
  · lia
  · have inside := piece_member state after code fragment.emitted placed line above below statement found
    have marked := (fragment.confined.closed statement inside label jumps).resolve_right List.not_mem_nil
    obtain ⟨mark, member, names⟩ := (mem_marks code label).mp marked
    obtain ⟨target, behind, upTo, foundMark⟩ := piece_line state after code fragment.emitted placed mark member
    have same := program.last_naming_unique .label label next target last
      (Machine.named_last program distinct target mark label foundMark names)
    lia

theorem tested_advances (label : SymbolRef) (before after : Lowering) (code : List Statement) (jump : Statement)
    (tested : Tested label before after code jump) (placed : after.program.statements <+: program.statements)
    (target : Line) (marked : program.get? target = some (mark label)) (line next : Line)
    (above : before.program.size ≤ line) (below : line < after.program.size)
    (advances : program.Advances line next) :
    (before.program.size ≤ next ∧ next ≤ after.program.size) ∨ next = target := by
  rcases advances with ⟨_, _, _, _, rfl⟩ | ⟨statement, other, found, jumps, last⟩
  · lia
  · have inside := piece_member before after _ tested.emitted placed line above below statement found
    rcases List.mem_append.mp inside with early | final
    · rw [statement.plain_jump_target (tested.plain statement early)] at jumps
      cases jumps
    · rw [List.mem_singleton.mp final, tested.target] at jumps
      obtain rfl := Option.some.inj jumps
      exact Or.inr (program.last_naming_unique .label label.id next target last
        (Machine.mark_last program distinct target label marked))

omit distinct in
theorem ret_sealed (value : Node) (state after : Lowering) (ran : ret value state = .ok () after)
    (placed : after.program.statements <+: program.statements) :
    program.Sealed state.program.size after.program.size := by
  obtain ⟨code, last, emitted, plain, returns⟩ := ret_stages value state after () ran
  have lines := Lowering.extends_lines state after _ emitted
  rw [List.length_append, List.length_singleton] at lines
  have stands := Machine.stands_of_extends state after _ emitted placed
  rw [Machine.stands_append, Machine.stands_single] at stands
  refine ⟨fun line => state.program.size ≤ line ∧ line < after.program.size, by lia, fun line inside => inside, ?_⟩
  intro line next inside advances
  rcases advances with ⟨statement, found, goesOn, _, rfl⟩ | ⟨statement, label, found, jumps, _⟩
  · have early : line ≠ state.program.size + code.length := by
      rintro rfl
      obtain rfl : last = statement := Option.some.inj (stands.2.symm.trans found)
      exact goesOn returns
    lia
  · rcases List.mem_append.mp (piece_member state after _ emitted placed line inside.1 inside.2 statement found) with
      early | final
    · rw [statement.plain_jump_target (plain statement early)] at jumps
      cases jumps
    · rw [List.mem_singleton.mp final] at jumps
      simp [Statement.jumpTarget?, returns, Opcode.isConditionalJump] at jumps

omit distinct in
theorem sealed_widen (low high more : Line) (upTo : high ≤ more) (closed : program.Sealed low high) :
    program.Sealed low more := by
  obtain ⟨inside, first, range, stays⟩ := closed
  refine ⟨inside, first, ?_, stays⟩
  intro line member
  have bounds := range line member
  lia

omit distinct in
theorem sealed_behind (low middle high : Line) (order : low ≤ middle ∧ middle ≤ high)
    (leads : ∀ line next, low ≤ line → line < middle → program.Advances line next → low ≤ next ∧ next ≤ middle)
    (closed : program.Sealed middle high) : program.Sealed low high := by
  obtain ⟨inside, first, range, stays⟩ := closed
  refine ⟨fun line => (low ≤ line ∧ line < middle) ∨ inside line, ?_, ?_, ?_⟩
  · by_cases empty : low = middle
    · exact Or.inr (empty ▸ first)
    · exact Or.inl (by lia)
  · rintro line (early | late)
    · lia
    · have bounds := range line late
      lia
  · rintro line next (early | late) advances
    · have bounds := leads line next early.1 early.2 advances
      by_cases arrived : next = middle
      · exact Or.inr (arrived ▸ first)
      · exact Or.inl (by lia)
    · exact Or.inr (stays line next late advances)

theorem branching_sealed (condition consequent alternative : Node) (otherwise done : SymbolRef)
    (state labelled tested joined turned finished after : Lowering)
    (label : freshLabel state = .ok otherwise labelled)
    (test : jumpUnless condition otherwise labelled = .ok () tested)
    (lowered : statement consequent tested = .ok () joined) (turns : Turns otherwise done joined turned)
    (loweredOther : statement alternative turned = .ok () finished)
    (close : emitLabel done finished = .ok () after)
    (placed : after.program.statements <+: program.statements)
    (first : joined.program.statements <+: program.statements →
      program.Sealed tested.program.size joined.program.size)
    (second : finished.program.statements <+: program.statements →
      program.Sealed turned.program.size finished.program.size) :
    program.Sealed state.program.size after.program.size := by
  -- Neither branch is left, so what stands between them is reached by the jump only.
  have start := Machine.fresh_label_lines state labelled otherwise label
  obtain ⟨code, jump, check⟩ := jump_unless_stages condition otherwise labelled tested () test
  obtain ⟨inner, body⟩ := statement_fragment consequent tested joined lowered
  obtain ⟨rest, other⟩ := statement_fragment alternative turned finished loweredOther
  have between := (turns_extends otherwise done joined turned turns).1
  have closed := (emitted_extends (mark done) finished after () close).1
  have placedFinished := Machine.placed_before finished after _ closed placed
  have placedTurned := Machine.placed_before turned finished _ other.emitted placedFinished
  have placedJoined := Machine.placed_before joined turned _ between placedTurned
  have placedTested := Machine.placed_before tested joined _ body.emitted placedJoined
  have marked : program.get? (joined.program.size + 1) = some (mark otherwise) :=
    Machine.stands_of_extends joined turned _ between placedTurned 1 _ rfl
  have lines := Lowering.extends_lines labelled tested _ check.emitted
  have turnLines : turned.program.size = joined.program.size + 2 :=
    Lowering.extends_lines joined turned _ between
  have closeLines := Lowering.extends_lines finished after _ closed
  have bodyLines := Lowering.extends_lines tested joined _ body.emitted
  have restLines := Lowering.extends_lines turned finished _ other.emitted
  rw [List.length_append, List.length_singleton] at lines
  obtain ⟨left, enterLeft, rangeLeft, staysLeft⟩ := first placedJoined
  obtain ⟨right, enterRight, rangeRight, staysRight⟩ := second placedFinished
  refine ⟨fun line => (state.program.size ≤ line ∧ line < tested.program.size) ∨ left line ∨
    line = joined.program.size + 1 ∨ right line, Or.inl (by lia), ?_, ?_⟩
  · rintro line (early | inLeft | rfl | inRight)
    · lia
    · have bounds := rangeLeft line inLeft
      lia
    · lia
    · have bounds := rangeRight line inRight
      lia
  · rintro line next (early | inLeft | rfl | inRight) advances
    · rcases tested_advances distinct otherwise labelled tested code jump check placedTested _ marked line next
        (by lia) early.2 advances with falls | jumps
      · by_cases arrived : next = tested.program.size
        · exact Or.inr (Or.inl (arrived ▸ enterLeft))
        · exact Or.inl (by lia)
      · exact Or.inr (Or.inr (Or.inl jumps))
    · exact Or.inr (Or.inl (staysLeft line next inLeft advances))
    · rcases advances with ⟨_, _, _, _, rfl⟩ | ⟨statement, label, found, jumps, _⟩
      · exact Or.inr (Or.inr (Or.inr (by rw [← turnLines]; exact enterRight)))
      · rw [marked] at found
        obtain rfl := Option.some.inj found
        cases jumps
    · exact Or.inr (Or.inr (Or.inr (staysRight line next inRight advances)))

theorem halts_sealed (node : Node) (halts : node.completes = false) (state after : Lowering)
    (ran : statement node state = .ok () after) (placed : after.program.statements <+: program.statements) :
    program.Sealed state.program.size after.program.size := by
  induction node using Node.construct_induction generalizing state after with
  | each node ih =>
      rw [Node.completes_construct] at halts
      cases shape : node.construct with
      | plain => simp [shape] at halts
      | ret value =>
          rw [statement_construct, shape] at ran
          exact ret_sealed value state after ran placed
      | sequence first rest =>
          rw [shape, Bool.and_eq_false_iff] at halts
          obtain ⟨middle, early, late⟩ := sequence_stages node first rest shape state after ran
          obtain ⟨codeFirst, fragmentFirst⟩ := statement_fragment first state middle early
          obtain ⟨codeRest, fragmentRest⟩ := statement_fragment rest middle after late
          have placedMiddle := Machine.placed_before middle after codeRest fragmentRest.emitted placed
          have linesFirst := Lowering.extends_lines state middle _ fragmentFirst.emitted
          have linesRest := Lowering.extends_lines middle after _ fragmentRest.emitted
          rcases halts with haltsFirst | haltsRest
          · exact sealed_widen _ middle.program.size _ (by lia)
              (ih first (by simp [shape, Construct.parts]) haltsFirst state middle early placedMiddle)
          · exact sealed_behind _ middle.program.size _ ⟨by lia, by lia⟩
              (fragment_advances distinct state middle codeFirst fragmentFirst placedMiddle)
              (ih rest (by simp [shape, Construct.parts]) haltsRest middle after late placed)
      | conditional condition consequent alternative =>
          rw [shape] at halts
          obtain ⟨otherwise, labelled, tested, joined, label, test, lowered, closes⟩ :=
            conditional_stages node condition consequent alternative shape state after ran
          cases alternative with
          | none => simp at halts
          | some other =>
              obtain ⟨done, turned, finished, turns, loweredOther, close⟩ := closes
              obtain ⟨haltsFirst, haltsOther⟩ := Bool.or_eq_false_iff.mp halts
              exact branching_sealed distinct condition consequent other otherwise done state labelled tested joined
                turned finished after label test lowered turns loweredOther close placed
                (ih consequent (by simp [shape, Construct.parts]) haltsFirst tested joined lowered)
                (ih other (by simp [shape, Construct.parts]) haltsOther turned finished loweredOther)
      | loop condition body => simp [shape] at halts

end Placed

end Lower

end ThreeAddress
