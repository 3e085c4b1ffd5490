import Mathlib.Logic.Relation
import ThreeAddress.Flow.Graph
import ThreeAddress.Proofs.Flow.Landmarks

set_option autoImplicit false

namespace ThreeAddress

namespace Program

def FallsThrough (program : Program) (line : Line) : Prop :=
  ∃ statement after, program.get? line = some statement ∧
    statement.opcode ≠ .ret ∧ statement.opcode ≠ .goto ∧
    program.get? (line + 1) = some after ∧ after.opcode ≠ .func

def JumpsTo (program : Program) (line target : Line) : Prop :=
  ∃ statement label, program.get? line = some statement ∧
    statement.jumpTarget? = some label ∧ program.LastNaming .label label target

def Step (program : Program) (line next : Line) : Prop :=
  (program.FallsThrough line ∧ next = line + 1) ∨ program.JumpsTo line next

def Calls (program : Program) (line entry : Line) : Prop :=
  ∃ statement function, program.get? line = some statement ∧
    statement.callee? = some function ∧ program.LastNaming .func function entry

def Reaches (program : Program) : Line → Line → Prop :=
  Relation.ReflTransGen fun line next => program.Step line next ∨ program.Calls line next

theorem jumps_to_unique (program : Program) (line a b : Line) (left : program.JumpsTo line a)
    (right : program.JumpsTo line b) : a = b := by
  obtain ⟨statement, label, found, target, last⟩ := left
  obtain ⟨other, otherLabel, foundOther, otherTarget, otherLast⟩ := right
  obtain rfl : statement = other := Option.some.inj (found.symm.trans foundOther)
  obtain rfl : label = otherLabel := Option.some.inj (target.symm.trans otherTarget)
  exact program.last_naming_unique .label label a b last otherLast

theorem jumps_to_leader (program : Program) (line target : Line) (jumps : program.JumpsTo line target) :
    program.Leader target := by
  obtain ⟨statement, label, found, jumpTarget, last⟩ := jumps
  exact Or.inr (Or.inr (Or.inr ⟨line, statement, label, found, jumpTarget, last⟩))

theorem entry_leader (program : Program) (function : SymbolId) (entry : Line)
    (last : program.LastNaming .func function entry) : program.Leader entry := by
  obtain ⟨⟨statement, found, names⟩, _⟩ := last
  exact Or.inr (Or.inl ⟨statement, found, names.1⟩)

theorem calls_leader (program : Program) (line entry : Line) (calls : program.Calls line entry) :
    program.Leader entry := by
  obtain ⟨_, function, _, _, last⟩ := calls
  exact program.entry_leader function entry last

end Program

theorem Statement.jump_target_is_jump (statement : Statement) (label : SymbolId)
    (target : statement.jumpTarget? = some label) : statement.opcode.isJump = true := by
  unfold jumpTarget? at target
  by_cases goto : statement.opcode = .goto
  · rw [goto]
    rfl
  · rw [if_neg goto] at target
    by_cases conditional : statement.opcode.isConditionalJump = true
    · cases opcode : statement.opcode <;> simp_all [Opcode.isJump, Opcode.isConditionalJump]
    · simp [conditional] at target

theorem Statement.callee_call (statement : Statement) (function : SymbolId)
    (callee : statement.callee? = some function) : statement.opcode = .call := by
  unfold callee? at callee
  by_cases call : statement.opcode = .call
  · exact call
  · simp [call] at callee

theorem Program.inside_falls_through (program : Program) (line : Line)
    (bound : line + 1 < program.size) (inside : ¬ program.Leader (line + 1)) :
    program.FallsThrough line ∧ (∀ target, ¬ program.JumpsTo line target) ∧
      ∃ statement, program.get? line = some statement ∧ statement.opcode ≠ .call := by
  obtain ⟨statement, found⟩ := program.get_of_lt line (by lia)
  obtain ⟨after, foundAfter⟩ := program.get_of_lt (line + 1) bound
  have plain : ¬ (statement.opcode.isJump = true ∨ statement.opcode = .ret) := fun ends =>
    inside (Or.inr (Or.inr (Or.inl ⟨bound, line, statement, rfl, found, ends⟩)))
  have notFunction : after.opcode ≠ .func := fun function =>
    inside (Or.inr (Or.inl ⟨after, foundAfter, function⟩))
  have same : ∀ other, program.get? line = some other → other = statement := fun other foundOther =>
    Option.some.inj (foundOther.symm.trans found)
  refine ⟨⟨statement, after, found, ?_, ?_, foundAfter, notFunction⟩, ?_, statement, found, ?_⟩
  · intro ret
    exact plain (Or.inr ret)
  · intro goto
    exact plain (Or.inl (by rw [goto]; rfl))
  · intro target jumps
    obtain ⟨other, label, foundOther, jumpTarget, _⟩ := jumps
    rw [same other foundOther] at jumpTarget
    exact plain (Or.inl (statement.jump_target_is_jump label jumpTarget))
  · intro call
    exact plain (Or.inl (by rw [call]; rfl))

namespace Branching

theorem mem_successors (branching : Branching Nat) (next line : Nat) :
    line ∈ (branching.successors next).toList ↔
      (branching.fallsThrough = true ∧ line = next) ∨ branching.target = some line := by
  obtain ⟨falls, target⟩ := branching
  cases target with
  | none => cases falls <;> simp [successors, Successors.toList]
  | some target =>
      by_cases branches : falls = true ∧ target ≠ next
      · simp [successors, Successors.toList, branches, eq_comm]
      · simp only [successors, if_neg branches, Successors.toList, List.mem_singleton]
        cases falls with
        | false => simp [eq_comm]
        | true =>
            have same : target = next := by simpa using branches
            simp [same, eq_comm]

theorem successors_nodup (branching : Branching Nat) (next : Nat) :
    (branching.successors next).toList.Nodup := by
  obtain ⟨falls, target⟩ := branching
  cases target with
  | none => cases falls <;> simp [successors, Successors.toList]
  | some target =>
      by_cases branches : falls = true ∧ target ≠ next
      · simp [successors, Successors.toList, branches, branches.2.symm]
      · simp [successors, Successors.toList, branches]

theorem successors_head (branching : Branching Nat) (next : Nat)
    (falls : branching.fallsThrough = true) :
    (branching.successors next).toList.head? = some next := by
  obtain ⟨_, target⟩ := branching
  cases falls
  cases target with
  | none => rfl
  | some target =>
      by_cases same : target = next
      · simp [successors, Successors.toList, same]
      · simp [successors, Successors.toList, same]

end Branching

namespace FlowGraph.Construction

structure Follow (program : Program) (last : Line) (lines : Successors Line) : Prop where
  mem : ∀ next, next ∈ lines.toList ↔ program.Step last next
  nodup : lines.toList.Nodup
  head : program.FallsThrough last → lines.toList.head? = some (last + 1)

theorem branching_follow (program : Program) (last : Line) (branching : Branching Line)
    (falls : branching.fallsThrough = true ↔ program.FallsThrough last)
    (target : ∀ line, branching.target = some line ↔ program.JumpsTo last line) :
    Follow program last (branching.successors (last + 1)) := by
  refine ⟨?_, branching.successors_nodup (last + 1), ?_⟩
  · intro next
    rw [branching.mem_successors, falls, target]
    rfl
  · intro through
    exact branching.successors_head (last + 1) (falls.mpr through)

theorem resolved_branching (program : Program) (marks : Landmarks)
    (describes : Landmarks.Describes program marks) (last : Line) (statement : Statement)
    (found : program.get? last = some statement) :
    ∃ target, statement.branching.resolve (marks.resolve last) =
        .ok ⟨statement.branching.fallsThrough, target⟩ ∧
      ∀ line, target = some line ↔ program.JumpsTo last line := by
  have same : ∀ other, program.get? last = some other → other = statement := fun other foundOther =>
    Option.some.inj (foundOther.symm.trans found)
  cases jumpTarget : statement.jumpTarget? with
  | none =>
      refine ⟨none, by simp [Branching.resolve, Statement.branching, jumpTarget], ?_⟩
      intro line
      refine ⟨fun absurd => by simp at absurd, ?_⟩
      intro jumps
      obtain ⟨other, label, foundOther, otherTarget, _⟩ := jumps
      rw [same other foundOther, jumpTarget] at otherTarget
      cases otherTarget
  | some label =>
      obtain ⟨target, labelled⟩ := describes.targets last statement label found jumpTarget
      have resolved := (marks.resolve_ok last label target).mpr
        ((describes.labels label target).mpr labelled)
      refine ⟨some target, by simp [Branching.resolve, Statement.branching, jumpTarget, resolved], ?_⟩
      intro line
      have jumps : program.JumpsTo last target := ⟨statement, label, found, jumpTarget, labelled⟩
      constructor
      · intro equal
        exact Option.some.inj equal ▸ jumps
      · intro other
        rw [program.jumps_to_unique last target line jumps other]

theorem following_follow (program : Program) (marks : Landmarks)
    (describes : Landmarks.Describes program marks) (last : Line) (statement : Statement)
    (found : program.get? last = some statement) :
    ∃ lines diagnostics, following program marks last statement = .ok (lines, diagnostics) ∧
      Follow program last lines := by
  obtain ⟨target, resolved, jumps⟩ := resolved_branching program marks describes last statement found
  unfold following
  simp only [resolved]
  by_cases off : statement.branching.fallsThrough = true ∧
      (program.get? (last + 1)).all (fun after => after.opcode = .func) = true
  · rw [if_pos off]
    refine ⟨_, _, rfl, branching_follow program last _ ?_ jumps⟩
    refine ⟨fun absurd => by simp at absurd, ?_⟩
    intro falls
    obtain ⟨_, after, _, _, _, foundAfter, notFunction⟩ := falls
    simp [foundAfter, notFunction] at off
  · rw [if_neg off]
    refine ⟨_, _, rfl, branching_follow program last _ ?_ jumps⟩
    constructor
    · intro falls
      have opcode : statement.opcode ≠ .ret ∧ statement.opcode ≠ .goto := by
        simpa [Statement.branching] using falls
      rw [not_and] at off
      have runsOn := off falls
      cases next : program.get? (last + 1) with
      | none => simp [next] at runsOn
      | some after =>
          have notFunction : after.opcode ≠ .func := by simpa [next] using runsOn
          exact ⟨statement, after, found, opcode.1, opcode.2, next, notFunction⟩
    · intro falls
      obtain ⟨other, _, foundOther, notReturn, notGoto, _, _⟩ := falls
      obtain rfl : other = statement := Option.some.inj (foundOther.symm.trans found)
      simp [Statement.branching, notReturn, notGoto]

theorem called_entry (program : Program) (marks : Landmarks) (describes : Landmarks.Describes program marks)
    (last : Line) (statement : Statement) (found : program.get? last = some statement) (entry : Line) :
    calledEntry? marks statement = some entry ↔ program.Calls last entry := by
  unfold calledEntry?
  constructor
  · intro called
    obtain ⟨function, callee, entered⟩ := Option.bind_eq_some_iff.mp called
    exact ⟨statement, function, found, callee, (describes.entries function entry).mp entered⟩
  · intro calls
    obtain ⟨other, function, foundOther, callee, last⟩ := calls
    obtain rfl : other = statement := Option.some.inj (foundOther.symm.trans found)
    exact Option.bind_eq_some_iff.mpr ⟨function, callee, (describes.entries function entry).mpr last⟩

end FlowGraph.Construction

end ThreeAddress
