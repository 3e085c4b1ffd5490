import ThreeAddress.Proofs.Flow.Lines

set_option autoImplicit false

namespace ThreeAddress

namespace Program

def EnclosedBy (program : Program) (line : Line) (function : SymbolId) : Prop :=
  line < program.size ∧ ∃ start statement, start ≤ line ∧ program.get? start = some statement ∧
    statement.Names .func function ∧
    ∀ between other, start < between → between ≤ line → program.get? between = some other → other.opcode ≠ .func

theorem enclosed_unique (program : Program) (line : Line) (a b : SymbolId) (left : program.EnclosedBy line a)
    (right : program.EnclosedBy line b) : a = b := by
  obtain ⟨_, first, statement, _, found, names, clear⟩ := left
  obtain ⟨_, second, other, _, foundOther, namesOther, clearOther⟩ := right
  rcases Nat.lt_trichotomy first second with before | same | behind
  · exact absurd namesOther.1 (clear second other before (by lia) foundOther)
  · subst same
    obtain rfl : statement = other := Option.some.inj (found.symm.trans foundOther)
    exact Option.some.inj (names.2.symm.trans namesOther.2)
  · exact absurd names.1 (clearOther first statement behind (by lia) found)

theorem enclosed_next (program : Program) (line : Line) (function : SymbolId) (statement : Statement)
    (found : program.get? (line + 1) = some statement) (inside : statement.opcode ≠ .func) :
    program.EnclosedBy (line + 1) function ↔ program.EnclosedBy line function := by
  have bound := program.get_lt_size (line + 1) statement found
  constructor
  · rintro ⟨_, start, entry, before, foundEntry, names, clear⟩
    have above : start ≠ line + 1 := by
      rintro rfl
      obtain rfl : statement = entry := Option.some.inj (found.symm.trans foundEntry)
      exact inside names.1
    exact ⟨by lia, start, entry, by lia, foundEntry, names, fun between other after upTo => clear between other after
      (by lia)⟩
  · rintro ⟨_, start, entry, before, foundEntry, names, clear⟩
    refine ⟨bound, start, entry, by lia, foundEntry, names, ?_⟩
    intro between other after upTo foundOther
    by_cases last : between = line + 1
    · subst last
      obtain rfl : statement = other := Option.some.inj (found.symm.trans foundOther)
      exact inside
    · exact clear between other after (by lia) foundOther

theorem enclosed_entry (program : Program) (line : Line) (function : SymbolId) (statement : Statement)
    (found : program.get? line = some statement) (opcode : statement.opcode = .func) :
    program.EnclosedBy line function ↔ statement.subject? = some function := by
  constructor
  · rintro ⟨_, start, entry, before, foundEntry, names, clear⟩
    have same : start = line := by
      by_contra different
      exact clear line statement (by lia) (Nat.le_refl _) found opcode
    subst same
    obtain rfl : statement = entry := Option.some.inj (found.symm.trans foundEntry)
    exact names.2
  · intro subject
    exact ⟨program.get_lt_size line statement found, line, statement, Nat.le_refl _, found, ⟨opcode, subject⟩,
      fun between other after upTo => absurd upTo (Nat.not_le.mpr after)⟩

theorem enclosed_grows (statements : List Statement) (added : Statement) (line : Line) (function : SymbolId)
    (bound : line < statements.length) :
    EnclosedBy ⟨statements ++ [added]⟩ line function ↔ EnclosedBy ⟨statements⟩ line function := by
  have same : ∀ between, between ≤ line → get? ⟨statements ++ [added]⟩ between = get? ⟨statements⟩ between := by
    intro between upTo
    rw [get?, get?, List.getElem?_append_left (by lia)]
  have sizes : line < size ⟨statements ++ [added]⟩ ∧ line < size ⟨statements⟩ :=
    ⟨by simp [size]; lia, bound⟩
  simp only [EnclosedBy, sizes, true_and]
  grind

end Program

namespace Landmarks

namespace Survey

@[simp] theorem split_function (survey : Survey) (count : Nat) (line : Line) (statement : Statement) :
    (survey.split count line statement).function = survey.function := by
  unfold split
  split <;> rfl

@[simp] theorem split_functions (survey : Survey) (count : Nat) (line : Line) (statement : Statement) :
    (survey.split count line statement).marks.functions = survey.marks.functions := by
  unfold split
  split <;> rfl

@[simp] theorem jump_function (survey : Survey) (line : Line) (statement : Statement) :
    (survey.jump line statement).function = survey.function := by
  unfold jump
  split <;> rfl

@[simp] theorem name_functions (survey : Survey) (line : Line) (statement : Statement) :
    (survey.name line statement).marks.functions = survey.marks.functions := by
  unfold name
  split <;> rfl

theorem name_function (survey : Survey) (line : Line) (statement : Statement) :
    (survey.name line statement).function =
      if statement.opcode = .func then statement.subject? else survey.function := by
  unfold name
  split
  next opcode subject => simp [opcode, subject]
  next opcode subject => simp [opcode, subject]
  next opcode _ => simp [opcode]
  next opcode _ => simp [opcode]
  next bare named _ _ =>
    have notFunction : statement.opcode ≠ .func := by
      intro opcode
      cases subject : statement.subject? with
      | none => exact bare opcode subject
      | some function => exact named function opcode subject
    rw [if_neg notFunction]

theorem visit_function (count : Nat) (survey : Survey) (line : Line) (statement : Statement) :
    (visit count survey (line, statement)).function =
      if statement.opcode = .func then statement.subject? else survey.function := by
  simp only [visit, jump_function, split_function]
  exact name_function survey line statement

theorem visit_functions (count : Nat) (survey : Survey) (line : Line) (statement : Statement) :
    (visit count survey (line, statement)).marks.functions =
      survey.marks.functions ++ [(visit count survey (line, statement)).function] := by
  simp only [visit, jump_marks, split_functions, jump_function, split_function]
  simp only [enclose, name_functions]

theorem visit_all_functions_length (count : Nat) (first : Survey) (statements : List Statement)
    (unseen : first.marks.functions = []) :
    (visitAll count first statements).marks.functions.length = statements.length := by
  induction statements using List.reverseRecOn with
  | nil => simp [visitAll, Program.lines, unseen]
  | append_singleton statements added ih =>
      rw [visit_all_append, visit_functions, List.length_append, ih, List.length_append]
      rfl

theorem visit_all_function (count : Nat) (first : Survey) (statements : List Statement) (function : SymbolId)
    (outside : first.function = none) :
    (visitAll count first statements).function = some function ↔
      Program.EnclosedBy ⟨statements⟩ (statements.length - 1) function := by
  induction statements using List.reverseRecOn with
  | nil => simp [visitAll, Program.lines, outside, Program.EnclosedBy, Program.size]
  | append_singleton statements added ih =>
      have last := Program.get_append_size statements added
      rw [visit_all_append, visit_function, List.length_append, List.length_singleton, Nat.add_sub_cancel]
      by_cases opcode : added.opcode = .func
      · rw [if_pos opcode, Program.enclosed_entry _ _ function added last opcode]
      · rw [if_neg opcode, ih]
        cases statements with
        | nil =>
            simp [Program.EnclosedBy, Program.size, Program.get?, Statement.Names, opcode]
        | cons head rest =>
            have shifted := Program.enclosed_next _ rest.length function added last opcode
            have older := Program.enclosed_grows (head :: rest) added rest.length function (by simp)
            exact (shifted.trans older).symm

theorem visit_all_functions (count : Nat) (first : Survey) (statements : List Statement) (line : Line)
    (function : SymbolId) (unseen : first.marks.functions = []) (outside : first.function = none) :
    (visitAll count first statements).marks.functions[line]?.join = some function ↔
      Program.EnclosedBy ⟨statements⟩ line function := by
  induction statements using List.reverseRecOn with
  | nil => simp [visitAll, Program.lines, unseen, Program.EnclosedBy, Program.size]
  | append_singleton statements added ih =>
      have length := visit_all_functions_length count first statements unseen
      have current := visit_all_function count first (statements ++ [added]) function outside
      rw [visit_all_append] at current ⊢
      rw [visit_functions, List.getElem?_append, length]
      by_cases old : line < statements.length
      · rw [if_pos old, ih, Program.enclosed_grows statements added line function old]
      · rw [if_neg old]
        by_cases last : line = statements.length
        · rw [List.length_append, List.length_singleton, Nat.add_sub_cancel] at current
          simpa [last] using current
        · have beyond : line - statements.length ≠ 0 := by lia
          have outOf : ¬ line < Program.size ⟨statements ++ [added]⟩ := by
            simp [Program.size]
            lia
          simp [beyond, Program.EnclosedBy, outOf]

end Survey

theorem resolve_all_frame (marks resolved : Landmarks) (jumps : List (Line × SymbolId))
    (succeeded : marks.resolveAll jumps = .ok resolved) : resolved = { marks with leaders := resolved.leaders } := by
  induction jumps generalizing marks with
  | nil =>
      obtain rfl := Except.ok.inj succeeded
      rfl
  | cons jump rest ih =>
      unfold resolveAll at succeeded
      split at succeeded
      next target found => exact ih (marks.addLeader target) succeeded
      next => cases succeeded

theorem function_of_iff (program : Program) (marks : Landmarks) (collected : collect program = .ok marks)
    (line : Line) (function : SymbolId) :
    marks.functionOf line = some function ↔ program.EnclosedBy line function := by
  rw [collect_eq] at collected
  rw [resolve_all_frame _ marks _ collected, functionOf]
  apply Survey.visit_all_functions
  · unfold Survey.start
    split <;> rfl
  · rfl

end Landmarks

theorem FlowGraph.build_landmarks (program : Program) (table : SymbolTable) (name : String) (graph : FlowGraph)
    (built : build program table name = .ok graph) : Landmarks.collect program = .ok graph.landmarks := by
  unfold build at built
  grind

theorem FlowGraph.function_of_line (program : Program) (table : SymbolTable) (name : String) (graph : FlowGraph)
    (built : build program table name = .ok graph) (line : Line) (function : SymbolId) :
    graph.landmarks.functionOf line = some function ↔ program.EnclosedBy line function :=
  Landmarks.function_of_iff program graph.landmarks (build_landmarks program table name graph built) line function

end ThreeAddress
