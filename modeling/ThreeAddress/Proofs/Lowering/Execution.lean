import ThreeAddress.Proofs.Lowering.Machine

set_option autoImplicit false

/-!
Structured execution of syntax trees under any interpretation of statements. A tree is executed
together with the state in which it is lowered, since that decides the code of its conditions and
of the plain statements inside.
-/

namespace ThreeAddress

universe u

variable {σ : Type u}

inductive Outcome (σ : Type u) where
  | completed (s : σ)
  | returned (s : σ)

namespace Lower

def Tests (condition : Node) (label : SymbolRef) (before after : Lowering) (code : List Statement)
    (jump : Statement) : Prop :=
  jumpUnless condition label before = .ok () after ∧
    after.program.statements = before.program.statements ++ (code ++ [jump])

inductive Executes (meaning : Interpretation σ) : Node → Lowering → σ → Outcome σ → Prop where
  | plain (node : Node) (state after : Lowering) (code : List Statement) (s : σ)
      (shape : node.construct = .plain) (lowered : statement node state = .ok () after)
      (emitted : after.program.statements = state.program.statements ++ code) :
      Executes meaning node state s (.completed (meaning.run code s))
  | ret (node value : Node) (state after : Lowering) (code : List Statement) (last : Statement) (s : σ)
      (shape : node.construct = .ret value) (lowered : statement node state = .ok () after)
      (emitted : after.program.statements = state.program.statements ++ (code ++ [last])) :
      Executes meaning node state s (.returned (meaning.run code s))
  | sequence (node first rest : Node) (state middle : Lowering) (s t : σ) (outcome : Outcome σ)
      (shape : node.construct = .sequence first rest) (lowered : statement first state = .ok () middle)
      (early : Executes meaning first state s (.completed t))
      (late : Executes meaning rest middle t outcome) : Executes meaning node state s outcome
  | cutShort (node first rest : Node) (state : Lowering) (s t : σ)
      (shape : node.construct = .sequence first rest)
      (early : Executes meaning first state s (.returned t)) :
      Executes meaning node state s (.returned t)
  | consequent (node condition consequent : Node) (alternative : Option Node) (otherwise : SymbolRef)
      (state labelled tested : Lowering) (code : List Statement) (jump : Statement) (s : σ)
      (outcome : Outcome σ) (shape : node.construct = .conditional condition consequent alternative)
      (label : freshLabel state = .ok otherwise labelled)
      (tests : Tests condition otherwise labelled tested code jump)
      (stays : meaning.taken jump (meaning.run code s) = false)
      (inner : Executes meaning consequent tested (meaning.run code s) outcome) :
      Executes meaning node state s outcome
  | skipped (node condition consequent : Node) (otherwise : SymbolRef) (state labelled tested : Lowering)
      (code : List Statement) (jump : Statement) (s : σ)
      (shape : node.construct = .conditional condition consequent none)
      (label : freshLabel state = .ok otherwise labelled)
      (tests : Tests condition otherwise labelled tested code jump)
      (jumps : meaning.taken jump (meaning.run code s) = true) :
      Executes meaning node state s (.completed (meaning.run code s))
  | alternative (node condition consequent alternative : Node) (otherwise done : SymbolRef)
      (state labelled tested joined turned : Lowering) (code : List Statement) (jump : Statement) (s : σ)
      (outcome : Outcome σ) (shape : node.construct = .conditional condition consequent (some alternative))
      (label : freshLabel state = .ok otherwise labelled)
      (tests : Tests condition otherwise labelled tested code jump)
      (lowered : statement consequent tested = .ok () joined) (turns : Turns otherwise done joined turned)
      (jumps : meaning.taken jump (meaning.run code s) = true)
      (inner : Executes meaning alternative turned (meaning.run code s) outcome) :
      Executes meaning node state s outcome
  | loopEnds (node condition body : Node) (head done : SymbolRef) (state opened tested : Lowering)
      (code : List Statement) (jump : Statement) (s : σ) (shape : node.construct = .loop condition body)
      (opens : Opens head done state opened) (tests : Tests condition done opened tested code jump)
      (jumps : meaning.taken jump (meaning.run code s) = true) :
      Executes meaning node state s (.completed (meaning.run code s))
  | loopReturns (node condition body : Node) (head done : SymbolRef) (state opened tested : Lowering)
      (code : List Statement) (jump : Statement) (s t : σ) (shape : node.construct = .loop condition body)
      (opens : Opens head done state opened) (tests : Tests condition done opened tested code jump)
      (stays : meaning.taken jump (meaning.run code s) = false)
      (inner : Executes meaning body tested (meaning.run code s) (.returned t)) :
      Executes meaning node state s (.returned t)
  | loopRepeats (node condition body : Node) (head done : SymbolRef) (state opened tested : Lowering)
      (code : List Statement) (jump : Statement) (s t : σ) (outcome : Outcome σ)
      (shape : node.construct = .loop condition body) (opens : Opens head done state opened)
      (tests : Tests condition done opened tested code jump)
      (stays : meaning.taken jump (meaning.run code s) = false)
      (inner : Executes meaning body tested (meaning.run code s) (.completed t))
      (again : Executes meaning node state t outcome) : Executes meaning node state s outcome

theorem tests_tested (condition : Node) (label : SymbolRef) (before after : Lowering)
    (code : List Statement) (jump : Statement) (tests : Tests condition label before after code jump) :
    Tested label before after code jump := by
  obtain ⟨ran, emitted⟩ := tests
  obtain ⟨other, last, tested⟩ := jump_unless_stages condition label before after () ran
  have same : code ++ [jump] = other ++ [last] :=
    List.append_cancel_left (emitted.symm.trans tested.emitted.program)
  obtain ⟨sameCode, sameLast⟩ := List.append_inj' same rfl
  rw [sameCode, List.singleton_inj.mp sameLast]
  exact tested

theorem jump_unless_tests (condition : Node) (label : SymbolRef) (before after : Lowering)
    (ran : jumpUnless condition label before = .ok () after) :
    ∃ code jump, Tests condition label before after code jump := by
  obtain ⟨code, jump, tested⟩ := jump_unless_stages condition label before after () ran
  exact ⟨code, jump, ran, tested.emitted.program⟩

end Lower

end ThreeAddress
