import ThreeAddress.CompilationUnit
import ThreeAddress.Proofs.Lowering.Layout

set_option autoImplicit false

namespace ThreeAddress

universe u

variable {σ : Type u}

namespace Machine

open Lower

def Ends (program : Program) (meaning : Interpretation σ) (low high : Line) (s : σ) : Outcome σ → Prop
  | .completed t => ∃ steps, Runs program meaning low high steps (low, s) (high, t)
  | .returned t => ∃ steps line statement, Runs program meaning low high steps (low, s) (line, t) ∧
      low ≤ line ∧ line < high ∧ program.get? line = some statement ∧ statement.opcode = .ret

theorem executed_loop (program : Program) (meaning : Interpretation σ)
    (distinct : (marks program.statements).Nodup) (node condition body : Node) (head done : SymbolRef)
    (state opened tested after : Lowering) (code : List Statement) (jump : Statement)
    (shape : node.construct = .loop condition body) (opens : Opens head done state opened)
    (tests : Tests condition done opened tested code jump) (ran : statement node state = .ok () after)
    (placed : after.program.statements <+: program.statements) :
    ∃ ended, LoopLayout program meaning code jump state tested ended after ∧
      statement body tested = .ok () ended := by
  obtain ⟨first, second, third, fourth, ended, repeated, opensOther, test, lowered, back, close⟩ :=
    loop_stages node condition body shape state after ran
  obtain ⟨rfl, rfl, rfl⟩ := opens_unique head done first second state opened third opens opensOther
  obtain ⟨_, rfl⟩ := EStateM.Result.ok.inj (tests.1.symm.trans test)
  exact ⟨ended, loop_layout program meaning distinct condition body code jump head done state opened tested
    ended repeated after opens tests lowered back close placed, lowered⟩

section Simulation

variable {program : Program} {meaning : Interpretation σ}

theorem ends_inside (low high first stop : Line) (steps : Nat) (s t : σ) (outcome : Outcome σ)
    (range : low ≤ first ∧ stop ≤ high) (lead : Runs program meaning low high steps (low, s) (first, t))
    (inner : Ends program meaning first stop t outcome)
    (leave : ∀ last, outcome = .completed last →
      ∃ steps, Runs program meaning low high steps (stop, last) (high, last)) :
    Ends program meaning low high s outcome := by
  cases outcome with
  | completed last =>
      obtain ⟨inside, runs⟩ := inner
      obtain ⟨rest, leaves⟩ := leave last rfl
      have wide := runs_widen _ _ low high range inside _ _ runs
      exact ⟨_, runs_trans _ _ _ _ _ _ _ (runs_trans _ _ _ _ _ _ _ lead wide) leaves⟩
  | returned last =>
      obtain ⟨inside, line, statement, runs, above, below, found, returns⟩ := inner
      have wide := runs_widen _ _ low high range inside _ _ runs
      exact ⟨_, line, statement, runs_trans _ _ _ _ _ _ _ lead wide, by lia, by lia, found, returns⟩

theorem plain_code (node : Node) (state after : Lowering) (code : List Statement)
    (shape : node.construct = .plain) (lowered : statement node state = .ok () after)
    (emitted : after.program.statements = state.program.statements ++ code) :
    state.Extends after code ∧ ∀ statement ∈ code, statement.opcode.isPlain = true := by
  rw [statement_construct, shape] at lowered
  obtain ⟨other, extended, plain⟩ := simple_straight node state after () lowered
  obtain rfl : code = other := List.append_cancel_left (emitted.symm.trans extended.program)
  exact ⟨extended, plain⟩

theorem ret_code (node value : Node) (state after : Lowering) (code : List Statement) (last : Statement)
    (shape : node.construct = .ret value) (lowered : statement node state = .ok () after)
    (emitted : after.program.statements = state.program.statements ++ (code ++ [last])) :
    state.Extends after (code ++ [last]) ∧ (∀ statement ∈ code, statement.opcode.isPlain = true) ∧
      last.opcode = .ret := by
  rw [statement_construct, shape] at lowered
  obtain ⟨other, final, extended, plain, returns⟩ := ret_stages value state after () lowered
  have same : code ++ [last] = other ++ [final] :=
    List.append_cancel_left (emitted.symm.trans extended.program)
  obtain ⟨sameCode, sameLast⟩ := List.append_inj' same rfl
  rw [sameCode, List.singleton_inj.mp sameLast]
  exact ⟨extended, plain, returns⟩

theorem plain_ends (before after : Lowering) (code : List Statement) (emitted : before.Extends after code)
    (plain : ∀ statement ∈ code, statement.opcode.isPlain = true)
    (placed : after.program.statements <+: program.statements) (s : σ) :
    Ends program meaning before.program.size after.program.size s (.completed (meaning.run code s)) := by
  rw [Lowering.extends_lines before after code emitted]
  exact ⟨code.length, runs_plain meaning before.program.size code
    (stands_of_extends before after code emitted placed) plain s⟩

theorem ret_ends (before after : Lowering) (code : List Statement) (last : Statement)
    (emitted : before.Extends after (code ++ [last]))
    (plain : ∀ statement ∈ code, statement.opcode.isPlain = true) (returns : last.opcode = .ret)
    (placed : after.program.statements <+: program.statements) (s : σ) :
    Ends program meaning before.program.size after.program.size s (.returned (meaning.run code s)) := by
  have stands := stands_of_extends before after _ emitted placed
  rw [stands_append, stands_single] at stands
  have lines := Lowering.extends_lines before after _ emitted
  rw [List.length_append, List.length_singleton] at lines
  have lead := runs_plain meaning before.program.size code stands.1 plain s
  exact ⟨code.length, before.program.size + code.length, last, runs_widen _ _ _ _ (by lia) _ _ _ lead,
    by lia, by lia, stands.2, returns⟩

theorem executes_ends (distinct : (marks program.statements).Nodup) (node : Node) (state after : Lowering)
    (s : σ) (outcome : Outcome σ) (executes : Executes meaning node state s outcome)
    (ran : statement node state = .ok () after)
    (placed : after.program.statements <+: program.statements) :
    Ends program meaning state.program.size after.program.size s outcome := by
  -- Induction on the execution; the machine follows it through the lines of each stage.
  induction executes generalizing after with
  | plain node state last code s shape lowered emitted =>
      obtain ⟨_, rfl⟩ := EStateM.Result.ok.inj (lowered.symm.trans ran)
      obtain ⟨extended, plain⟩ := plain_code node state last code shape lowered emitted
      exact plain_ends state last code extended plain placed s
  | ret node value state final code last s shape lowered emitted =>
      obtain ⟨_, rfl⟩ := EStateM.Result.ok.inj (lowered.symm.trans ran)
      obtain ⟨extended, plain, returns⟩ := ret_code node value state final code last shape lowered emitted
      exact ret_ends state final code last extended plain returns placed s
  | sequence node first rest state middle s t outcome shape lowered _ _ ihEarly ihLate =>
      obtain ⟨other, early, late⟩ := sequence_stages node first rest shape state after ran
      obtain ⟨_, rfl⟩ := EStateM.Result.ok.inj (lowered.symm.trans early)
      obtain ⟨code, fragment⟩ := statement_fragment rest middle after late
      obtain ⟨more, fragmentFirst⟩ := statement_fragment first state middle early
      have lines := Lowering.extends_lines middle after code fragment.emitted
      have linesFirst := Lowering.extends_lines state middle more fragmentFirst.emitted
      obtain ⟨steps, runs⟩ := ihEarly middle early (placed_before middle after code fragment.emitted placed)
      exact ends_inside _ _ middle.program.size after.program.size steps s t outcome (by lia)
        (runs_widen _ _ _ _ (by lia) _ _ _ runs) (ihLate after late placed) fun last _ => ⟨0, .refl _⟩
  | cutShort node first rest state s t shape _ ih =>
      obtain ⟨middle, early, late⟩ := sequence_stages node first rest shape state after ran
      obtain ⟨code, fragment⟩ := statement_fragment rest middle after late
      have lines := Lowering.extends_lines middle after code fragment.emitted
      exact ends_inside _ _ state.program.size middle.program.size 0 s s (.returned t) (by lia) (.refl _)
        (ih middle early (placed_before middle after code fragment.emitted placed)) nofun
  | consequent node condition consequent alternative otherwise state labelled tested code jump s outcome
      shape label tests stays _ ih =>
      obtain ⟨other, second, third, joined, labelOther, test, lowered, rest⟩ :=
        conditional_stages node condition consequent alternative shape state after ran
      obtain ⟨rfl, rfl⟩ := EStateM.Result.ok.inj (label.symm.trans labelOther)
      obtain ⟨_, rfl⟩ := EStateM.Result.ok.inj (tests.1.symm.trans test)
      obtain ⟨target, layout⟩ := conditional_layout meaning distinct condition consequent alternative code jump
        otherwise state labelled tested joined after label tests lowered rest placed
      have order := layout.ordered
      obtain ⟨steps, enters⟩ := layout.enters s stays
      exact ends_inside _ _ tested.program.size joined.program.size steps s _ outcome (by lia) enters
        (ih joined lowered layout.placed) fun last _ => layout.leaves last
  | skipped node condition consequent otherwise state labelled tested code jump s shape label tests jumps =>
      obtain ⟨other, second, third, joined, labelOther, test, lowered, close⟩ :=
        conditional_stages node condition consequent none shape state after ran
      obtain ⟨rfl, rfl⟩ := EStateM.Result.ok.inj (label.symm.trans labelOther)
      obtain ⟨_, rfl⟩ := EStateM.Result.ok.inj (tests.1.symm.trans test)
      have layout := skipping_layout meaning distinct condition code jump otherwise state labelled tested
        joined after consequent label tests lowered close placed
      exact layout.turns s jumps
  | alternative node condition consequent alternative otherwise done state labelled tested joined turned code
      jump s outcome shape label tests lowered turns jumps _ ih =>
      obtain ⟨other, second, third, fourth, labelOther, test, loweredOther, doneOther, fifth, finished,
        turnsOther, last, close⟩ :=
        conditional_stages node condition consequent (some alternative) shape state after ran
      obtain ⟨rfl, rfl⟩ := EStateM.Result.ok.inj (label.symm.trans labelOther)
      obtain ⟨_, rfl⟩ := EStateM.Result.ok.inj (tests.1.symm.trans test)
      obtain ⟨_, rfl⟩ := EStateM.Result.ok.inj (lowered.symm.trans loweredOther)
      obtain ⟨rfl, rfl⟩ := turns_unique otherwise done doneOther joined turned fifth turns turnsOther
      obtain ⟨layout, placedLast, above, below, closes⟩ := branching_layout meaning distinct condition code jump
        otherwise done state labelled tested joined turned finished after consequent alternative label tests
        lowered turns last close placed
      have order := layout.ordered
      obtain ⟨steps, lead⟩ := layout.turns s jumps
      exact ends_inside _ _ turned.program.size finished.program.size steps s _ outcome (by lia) lead
        (ih finished last placedLast) fun last _ => closes last
  | loopEnds node condition body head done state opened tested code jump s shape opens tests jumps =>
      obtain ⟨ended, layout, _⟩ := executed_loop program meaning distinct node condition body head done
        state opened tested after code jump shape opens tests ran placed
      exact layout.ends s jumps
  | loopReturns node condition body head done state opened tested code jump s t shape opens tests stays _ ih =>
      obtain ⟨ended, layout, lowered⟩ := executed_loop program meaning distinct node condition body head done
        state opened tested after code jump shape opens tests ran placed
      have order := layout.ordered
      obtain ⟨steps, enters⟩ := layout.enters s stays
      exact ends_inside _ _ tested.program.size ended.program.size steps s _ (.returned t) (by lia) enters
        (ih ended lowered layout.placed) nofun
  | loopRepeats node condition body head done state opened tested code jump s t outcome shape opens tests stays
      _ _ ihInner ihAgain =>
      obtain ⟨ended, layout, lowered⟩ := executed_loop program meaning distinct node condition body head done
        state opened tested after code jump shape opens tests ran placed
      have order := layout.ordered
      obtain ⟨steps, enters⟩ := layout.enters s stays
      obtain ⟨round, inner⟩ := ihInner ended lowered layout.placed
      have once := runs_trans _ _ _ _ _ _ _ enters (runs_widen _ _ _ _ (by lia) _ _ _ inner)
      exact ends_inside _ _ state.program.size after.program.size _ s t outcome (by lia)
        (runs_trans _ _ _ 1 _ _ _ once (layout.repeats t)) (ihAgain after ran placed) fun _ _ => ⟨0, .refl _⟩

/-- Where a run goes on after the lines of a statement, with no more steps than it had. -/
def Leaves (program : Program) (meaning : Interpretation σ) (low high : Line) (steps : Nat)
    (last : Line × σ) : Outcome σ → Prop
  | .completed t => ∃ rest ≤ steps, Runs program meaning 0 program.size rest (high, t) last
  | .returned t => last.2 = t ∧ low ≤ last.1 ∧ last.1 < high

theorem final_narrow (low high first stop : Line) (last : Line × σ) (range : low ≤ first ∧ stop ≤ high)
    (final : Final program low high last) : Final program first stop last := by
  intro above below
  exact final (by lia) (by lia)

theorem ends_leaves (low high : Line) (s : σ) (outcome : Outcome σ)
    (ends : Ends program meaning low high s outcome) (steps : Nat) (last : Line × σ)
    (runs : Runs program meaning 0 program.size steps (low, s) last) (final : Final program low high last) :
    Leaves program meaning low high steps last outcome := by
  cases outcome with
  | completed t =>
      obtain ⟨count, inside⟩ := ends
      obtain ⟨rest, total, onward⟩ := runs_pass low high count steps _ _ last inside runs final
      exact ⟨rest, by lia, onward⟩
  | returned t =>
      obtain ⟨count, line, statement, inside, above, below, found, returns⟩ := ends
      obtain ⟨rest, total, onward⟩ := runs_pass low high count steps _ _ last inside runs final
      have stopped := runs_from_return rest line t last statement found returns onward
      rw [stopped]
      exact ⟨rfl, above, below⟩

theorem executes_leaves (distinct : (marks program.statements).Nodup) (node : Node)
    (state after : Lowering) (s : σ) (outcome : Outcome σ) (executes : Executes meaning node state s outcome)
    (ran : statement node state = .ok () after) (placed : after.program.statements <+: program.statements)
    (steps : Nat) (last : Line × σ)
    (runs : Runs program meaning 0 program.size steps (state.program.size, s) last)
    (final : Final program state.program.size after.program.size last) :
    Leaves program meaning state.program.size after.program.size steps last outcome :=
  ends_leaves _ _ s outcome (executes_ends distinct node state after s outcome executes ran placed) steps last
    runs final

theorem loop_executes (distinct : (marks program.statements).Nodup) (node condition body : Node)
    (shape : node.construct = .loop condition body) (state after : Lowering)
    (ran : statement node state = .ok () after) (placed : after.program.statements <+: program.statements)
    (last : Line × σ)
    (bodyExecutes : ∀ (before finished : Lowering), statement body before = .ok () finished →
      finished.program.statements <+: program.statements → ∀ (s : σ) (steps : Nat),
      Runs program meaning 0 program.size steps (before.program.size, s) last →
      Final program before.program.size finished.program.size last →
      ∃ outcome, Executes meaning body before s outcome)
    (s : σ) (steps : Nat)
    (runs : Runs program meaning 0 program.size steps (state.program.size, s) last)
    (final : Final program state.program.size after.program.size last) :
    ∃ outcome, Executes meaning node state s outcome := by
  -- A run of the machine that leaves the lines of a loop goes through fewer and fewer steps.
  obtain ⟨head, done, opened, tested, ended, repeated, opens, test, lowered, back, close⟩ :=
    loop_stages node condition body shape state after ran
  obtain ⟨code, jump, tests⟩ := jump_unless_tests condition done opened tested test
  have layout := loop_layout program meaning distinct condition body code jump head done state opened tested
    ended repeated after opens tests lowered back close placed
  have order := layout.ordered
  have inner : Final program tested.program.size ended.program.size last :=
    final_narrow _ _ _ _ last (by lia) final
  induction steps using Nat.strongRecOn generalizing s with
  | ind steps ih =>
      cases taken : meaning.taken jump (meaning.run code s) with
      | true =>
          exact ⟨_, .loopEnds node condition body head done state opened tested code jump s shape opens tests taken⟩
      | false =>
          obtain ⟨count, enters⟩ := layout.enters s taken
          obtain ⟨rest, total, onward⟩ := runs_pass _ _ count steps _ _ last enters runs final
          obtain ⟨outcome, executes⟩ := bodyExecutes tested ended lowered layout.placed _ rest onward inner
          have leaves := executes_leaves distinct body tested ended _ outcome executes lowered layout.placed rest
            last onward inner
          cases outcome with
          | returned t =>
              exact ⟨_, .loopReturns node condition body head done state opened tested code jump s t shape opens
                tests taken executes⟩
          | completed t =>
              obtain ⟨more, fewer, further⟩ := leaves
              obtain ⟨again, count, round⟩ := runs_pass _ _ 1 more _ _ last (layout.repeats t) further final
              obtain ⟨outcome, whole⟩ := ih again (by lia) t round
              exact ⟨outcome, .loopRepeats node condition body head done state opened tested code jump s t outcome
                shape opens tests taken executes whole⟩

theorem runs_executes (distinct : (marks program.statements).Nodup) (node : Node) (state after : Lowering)
    (ran : statement node state = .ok () after) (placed : after.program.statements <+: program.statements)
    (s : σ) (steps : Nat) (last : Line × σ)
    (runs : Runs program meaning 0 program.size steps (state.program.size, s) last)
    (final : Final program state.program.size after.program.size last) :
    ∃ outcome, Executes meaning node state s outcome := by
  induction node using Node.construct_induction generalizing state after s steps with
  | each node ih =>
      cases shape : node.construct with
      | plain =>
          obtain ⟨code, fragment⟩ := statement_fragment node state after ran
          exact ⟨_, .plain node state after code s shape ran fragment.emitted.program⟩
      | ret value =>
          have lowered := ran
          rw [statement_construct, shape] at lowered
          obtain ⟨code, final, emitted, _, _⟩ := ret_stages value state after () lowered
          exact ⟨_, .ret node value state after code final s shape ran emitted.program⟩
      | sequence first rest =>
          obtain ⟨middle, early, late⟩ := sequence_stages node first rest shape state after ran
          obtain ⟨restCode, restFragment⟩ := statement_fragment rest middle after late
          obtain ⟨firstCode, firstFragment⟩ := statement_fragment first state middle early
          have restLines := Lowering.extends_lines middle after restCode restFragment.emitted
          have firstLines := Lowering.extends_lines state middle firstCode firstFragment.emitted
          have placedMiddle := placed_before middle after restCode restFragment.emitted placed
          have finalFirst : Final program state.program.size middle.program.size last :=
            final_narrow _ _ _ _ last (by lia) final
          obtain ⟨outcome, executes⟩ := ih first (by simp [shape, Construct.parts]) state middle early
            placedMiddle s steps runs finalFirst
          have leaves := executes_leaves distinct first state middle s outcome executes early placedMiddle steps
            last runs finalFirst
          cases outcome with
          | returned t => exact ⟨_, .cutShort node first rest state s t shape executes⟩
          | completed t =>
              obtain ⟨more, _, onward⟩ := leaves
              obtain ⟨outcome, follows⟩ := ih rest (by simp [shape, Construct.parts]) middle after late placed t
                more onward (final_narrow _ _ _ _ last (by lia) final)
              exact ⟨outcome, .sequence node first rest state middle s t outcome shape early executes follows⟩
      | conditional condition consequent alternative =>
          obtain ⟨otherwise, labelled, tested, joined, label, test, lowered, rest⟩ :=
            conditional_stages node condition consequent alternative shape state after ran
          obtain ⟨code, jump, tests⟩ := jump_unless_tests condition otherwise labelled tested test
          obtain ⟨target, layout⟩ := conditional_layout meaning distinct condition consequent alternative code
            jump otherwise state labelled tested joined after label tests lowered rest placed
          have order := layout.ordered
          cases taken : meaning.taken jump (meaning.run code s) with
          | false =>
              obtain ⟨count, enters⟩ := layout.enters s taken
              obtain ⟨more, _, onward⟩ := runs_pass _ _ count steps _ _ last enters runs final
              obtain ⟨outcome, executes⟩ := ih consequent (by simp [shape, Construct.parts]) tested joined lowered
                layout.placed _ more onward (final_narrow _ _ _ _ last (by lia) final)
              exact ⟨outcome, .consequent node condition consequent alternative otherwise state labelled tested
                code jump s outcome shape label tests taken executes⟩
          | true =>
              cases alternative with
              | none =>
                  exact ⟨_, .skipped node condition consequent otherwise state labelled tested code jump s shape
                    label tests taken⟩
              | some other =>
                  obtain ⟨done, turned, finished, turns, loweredOther, close⟩ := rest
                  obtain ⟨branches, placedLast, above, below, _⟩ := branching_layout meaning distinct condition
                    code jump otherwise done state labelled tested joined turned finished after consequent other
                    label tests lowered turns loweredOther close placed
                  have range := branches.ordered
                  obtain ⟨count, lead⟩ := branches.turns s taken
                  obtain ⟨more, _, onward⟩ := runs_pass _ _ count steps _ _ last lead runs final
                  obtain ⟨outcome, executes⟩ := ih other (by simp [shape, Construct.parts]) turned finished
                    loweredOther placedLast _ more onward (final_narrow _ _ _ _ last (by lia) final)
                  exact ⟨outcome, .alternative node condition consequent other otherwise done state labelled tested
                    joined turned code jump s outcome shape label tests lowered turns taken executes⟩
      | loop condition body =>
          exact loop_executes distinct node condition body shape state after ran placed last
            (ih body (by simp [shape, Construct.parts])) s steps runs final

end Simulation

end Machine

end ThreeAddress
