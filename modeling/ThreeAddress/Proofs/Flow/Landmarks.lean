import Mathlib.Data.List.Induction
import ThreeAddress.Flow.Landmarks

set_option autoImplicit false

namespace ThreeAddress

def Statement.Names (opcode : Opcode) (id : SymbolId) (statement : Statement) : Prop :=
  statement.opcode = opcode ∧ statement.subject? = some id

instance (opcode : Opcode) (id : SymbolId) (statement : Statement) :
    Decidable (statement.Names opcode id) :=
  inferInstanceAs (Decidable (_ ∧ _))

namespace Program

/-- The last line whose statement names the id with this operator. -/
def LastNaming (program : Program) (opcode : Opcode) (id : SymbolId) (line : Line) : Prop :=
  (∃ statement, program.get? line = some statement ∧ statement.Names opcode id) ∧
    ∀ later statement, line < later → program.get? later = some statement →
      ¬ statement.Names opcode id

/-- Lines where control arrives other than from the line above, or where it leaves that line other
than to the next one. -/
def Leader (program : Program) (line : Line) : Prop :=
  (line = 0 ∧ 0 < program.size) ∨
  (∃ statement, program.get? line = some statement ∧ statement.opcode = .func) ∨
  (line < program.size ∧ ∃ before statement, line = before + 1 ∧
    program.get? before = some statement ∧ (statement.opcode.isJump ∨ statement.opcode = .ret)) ∨
  ∃ source statement label, program.get? source = some statement ∧
    statement.jumpTarget? = some label ∧ program.LastNaming .label label line

theorem get_append_size (statements : List Statement) (statement : Statement) :
    get? ⟨statements ++ [statement]⟩ statements.length = some statement := by
  simp [get?]

theorem get_append_cases (statements : List Statement) (added statement : Statement) (line : Line) :
    get? ⟨statements ++ [added]⟩ line = some statement ↔
      get? ⟨statements⟩ line = some statement ∨ (line = statements.length ∧ added = statement) := by
  simp only [get?, List.getElem?_append, List.getElem?_singleton]
  by_cases old : line < statements.length
  · have different : line ≠ statements.length := by lia
    simp [old, different]
  · by_cases last : line = statements.length
    · simp [last]
    · have beyond : line - statements.length ≠ 0 := by lia
      simp [old, last, beyond]

theorem get_lt_size (program : Program) (line : Line) (statement : Statement)
    (found : program.get? line = some statement) : line < program.size := by
  obtain ⟨bound, _⟩ := List.getElem?_eq_some_iff.mp found
  exact bound

theorem get_of_lt (program : Program) (line : Line) (bound : line < program.size) :
    ∃ statement, program.get? line = some statement :=
  ⟨program.statements[line], List.getElem?_eq_getElem bound⟩

theorem lines_append (statements : List Statement) (statement : Statement) :
    lines ⟨statements ++ [statement]⟩ = lines ⟨statements⟩ ++ [(statements.length, statement)] := by
  simp [lines, List.zipIdx_append]

theorem lines_sorted (program : Program) :
    (lines program).Pairwise fun line later => line.1 < later.1 := by
  have numbers : (lines program).map Prod.fst = List.range program.size := by
    simp [lines, size, List.map_map, Function.comp_def, List.range_eq_range']
  rw [← List.pairwise_map, numbers]
  exact List.pairwise_lt_range

theorem last_naming_lt_size (program : Program) (opcode : Opcode) (id : SymbolId) (line : Line)
    (last : program.LastNaming opcode id line) : line < program.size := by
  obtain ⟨⟨statement, found, _⟩, _⟩ := last
  exact program.get_lt_size line statement found

theorem last_naming_unique (program : Program) (opcode : Opcode) (id : SymbolId) (a b : Line)
    (left : program.LastNaming opcode id a) (right : program.LastNaming opcode id b) : a = b := by
  obtain ⟨⟨first, foundFirst, namesFirst⟩, lastFirst⟩ := left
  obtain ⟨⟨second, foundSecond, namesSecond⟩, lastSecond⟩ := right
  by_contra different
  rcases Nat.lt_or_gt_of_ne different with less | greater
  · exact lastFirst b second less foundSecond namesSecond
  · exact lastSecond a first greater foundFirst namesFirst

theorem last_naming_append (statements : List Statement) (added : Statement) (opcode : Opcode)
    (id : SymbolId) (line : Line) :
    LastNaming ⟨statements ++ [added]⟩ opcode id line ↔
      if added.Names opcode id then line = statements.length
      else LastNaming ⟨statements⟩ opcode id line := by
  have oldBound : ∀ line statement, get? ⟨statements⟩ line = some statement →
      line < statements.length := fun line statement => get_lt_size ⟨statements⟩ line statement
  by_cases names : added.Names opcode id
  · rw [if_pos names]
    constructor
    · rintro ⟨⟨statement, found, _⟩, last⟩
      by_contra different
      have bound := get_lt_size _ line statement found
      simp only [size, List.length_append, List.length_singleton] at bound
      exact last statements.length added (by lia) (get_append_size statements added) names
    · rintro rfl
      refine ⟨⟨added, get_append_size statements added, names⟩, ?_⟩
      intro later statement less found
      have bound := get_lt_size _ later statement found
      simp only [size, List.length_append, List.length_singleton] at bound
      lia
  · rw [if_neg names]
    constructor
    · rintro ⟨⟨statement, found, named⟩, last⟩
      rcases (get_append_cases statements added statement line).mp found with old | ⟨_, same⟩
      · refine ⟨⟨statement, old, named⟩, ?_⟩
        intro later other less foundOther
        exact last later other less
          ((get_append_cases statements added other later).mpr (Or.inl foundOther))
      · exact absurd (same ▸ named) names
    · rintro ⟨⟨statement, found, named⟩, last⟩
      refine ⟨⟨statement, (get_append_cases statements added statement line).mpr (Or.inl found),
        named⟩, ?_⟩
      intro later other less foundOther
      rcases (get_append_cases statements added other later).mp foundOther with old | ⟨_, same⟩
      · exact last later other less old
      · exact same ▸ names

theorem last_naming_exists (statements : List Statement) (opcode : Opcode) (id : SymbolId)
    (statement : Statement) (member : statement ∈ statements) (names : statement.Names opcode id) :
    ∃ line, LastNaming ⟨statements⟩ opcode id line := by
  induction statements using List.reverseRecOn with
  | nil => cases member
  | append_singleton statements added ih =>
      simp only [last_naming_append]
      by_cases last : added.Names opcode id
      · exact ⟨statements.length, by rw [if_pos last]⟩
      · simp only [if_neg last]
        rcases List.mem_append.mp member with earlier | same
        · exact ih earlier
        · exact absurd (List.mem_singleton.mp same ▸ names) last

theorem last_naming_get (program : Program) (opcode : Opcode) (id : SymbolId) :
    (∃ line, program.LastNaming opcode id line) ↔
      ∃ line statement, program.get? line = some statement ∧ statement.Names opcode id := by
  constructor
  · rintro ⟨line, ⟨statement, found, names⟩, _⟩
    exact ⟨line, statement, found, names⟩
  · rintro ⟨line, statement, found, names⟩
    exact last_naming_exists program.statements opcode id statement (List.mem_of_getElem? found) names

end Program

namespace Landmarks

theorem mem_add_leader (marks : Landmarks) (line other : Line) :
    other ∈ (marks.addLeader line).leaders ↔ other ∈ marks.leaders ∨ other = line := by
  rw [addLeader, Std.ExtTreeSet.mem_insert, Nat.compare_eq_eq, or_comm, eq_comm]

namespace Survey

@[simp] theorem split_labels (survey : Survey) (count : Nat) (line : Line) (statement : Statement) :
    (survey.split count line statement).marks.labels = survey.marks.labels := by
  unfold split
  split <;> rfl

@[simp] theorem split_entries (survey : Survey) (count : Nat) (line : Line) (statement : Statement) :
    (survey.split count line statement).marks.entries = survey.marks.entries := by
  unfold split
  split <;> rfl

@[simp] theorem split_jumps (survey : Survey) (count : Nat) (line : Line) (statement : Statement) :
    (survey.split count line statement).jumps = survey.jumps := by
  unfold split
  split <;> rfl

@[simp] theorem jump_marks (survey : Survey) (line : Line) (statement : Statement) :
    (survey.jump line statement).marks = survey.marks := by
  unfold jump
  split <;> rfl

@[simp] theorem name_jumps (survey : Survey) (line : Line) (statement : Statement) :
    (survey.name line statement).jumps = survey.jumps := by
  unfold name
  split <;> rfl

theorem name_labels (survey : Survey) (line : Line) (statement : Statement) (label : SymbolId) :
    (survey.name line statement).marks.labels[label]? =
      if statement.Names .label label then some line else survey.marks.labels[label]? := by
  unfold name
  split
  next opcode _ => simp [addLeader, Statement.Names, opcode]
  next opcode _ => simp [addLeader, addEntry, Statement.Names, opcode]
  next opcode subject =>
    simp only [addLabel, Std.ExtTreeMap.getElem?_insert, Nat.compare_eq_eq, Statement.Names, opcode,
      subject, true_and, Option.some.injEq]
  next opcode _ => simp [addCall, Statement.Names, opcode]
  next _ _ other _ => rw [if_neg fun names => other label names.1 names.2]

theorem name_entries (survey : Survey) (line : Line) (statement : Statement) (function : SymbolId) :
    (survey.name line statement).marks.entries[function]? =
      if statement.Names .func function then some line else survey.marks.entries[function]? := by
  unfold name
  split
  next subject => simp [addLeader, Statement.Names, subject]
  next opcode subject =>
    simp only [addLeader, addEntry, Std.ExtTreeMap.getElem?_insert, Nat.compare_eq_eq,
      Statement.Names, opcode, subject, true_and, Option.some.injEq]
  next opcode _ => simp [addLabel, Statement.Names, opcode]
  next opcode _ => simp [addCall, Statement.Names, opcode]
  next _ other _ _ => rw [if_neg fun names => other function names.1 names.2]

theorem name_leaders (survey : Survey) (line other : Line) (statement : Statement) :
    other ∈ (survey.name line statement).marks.leaders ↔
      other ∈ survey.marks.leaders ∨ (statement.opcode = .func ∧ other = line) := by
  unfold name
  split
  next opcode _ => simp [mem_add_leader, opcode]
  next opcode _ => simp [mem_add_leader, addEntry, opcode]
  next opcode _ => simp [addLabel, opcode]
  next opcode _ => simp [addCall, opcode]
  next bare named _ _ =>
    have notFunction : statement.opcode ≠ .func := by
      intro opcode
      cases subject : statement.subject? with
      | none => exact bare opcode subject
      | some function => exact named function opcode subject
    simp [notFunction]

theorem split_leaders (survey : Survey) (count : Nat) (line other : Line) (statement : Statement) :
    other ∈ (survey.split count line statement).marks.leaders ↔
      other ∈ survey.marks.leaders ∨
        (other < count ∧ other = line + 1 ∧ (statement.opcode.isJump ∨ statement.opcode = .ret)) := by
  unfold split
  split
  next splits =>
    rw [mem_add_leader]
    constructor
    · rintro (old | rfl)
      · exact Or.inl old
      · exact Or.inr ⟨splits.2, rfl, splits.1⟩
    · rintro (old | ⟨_, same, _⟩)
      · exact Or.inl old
      · exact Or.inr same
  next whole =>
    constructor
    · exact Or.inl
    · rintro (old | ⟨bound, rfl, ends⟩)
      · exact old
      · exact absurd ⟨ends, bound⟩ whole

theorem visit_labels (count : Nat) (survey : Survey) (line : Line) (statement : Statement)
    (label : SymbolId) :
    (visit count survey (line, statement)).marks.labels[label]? =
      if statement.Names .label label then some line else survey.marks.labels[label]? := by
  simp only [visit, jump_marks, split_labels]
  exact name_labels survey line statement label

theorem visit_entries (count : Nat) (survey : Survey) (line : Line) (statement : Statement)
    (function : SymbolId) :
    (visit count survey (line, statement)).marks.entries[function]? =
      if statement.Names .func function then some line else survey.marks.entries[function]? := by
  simp only [visit, jump_marks, split_entries]
  exact name_entries survey line statement function

theorem visit_leaders (count : Nat) (survey : Survey) (line other : Line) (statement : Statement) :
    other ∈ (visit count survey (line, statement)).marks.leaders ↔
      other ∈ survey.marks.leaders ∨ (statement.opcode = .func ∧ other = line) ∨
        (other < count ∧ other = line + 1 ∧ (statement.opcode.isJump ∨ statement.opcode = .ret)) := by
  simp only [visit, jump_marks, split_leaders]
  rw [show (survey.name line statement).enclose.marks.leaders =
    (survey.name line statement).marks.leaders from rfl, name_leaders, or_assoc]

theorem visit_jumps (count : Nat) (survey : Survey) (line : Line) (statement : Statement) :
    (visit count survey (line, statement)).jumps =
      survey.jumps ++ (statement.jumpTarget?.map fun label => (line, label)).toList := by
  simp only [visit, jump]
  cases statement.jumpTarget? <;> simp [enclose]

def visitAll (count : Nat) (first : Survey) (statements : List Statement) : Survey :=
  (Program.lines ⟨statements⟩).foldl (visit count) first

theorem visit_all_append (count : Nat) (first : Survey) (statements : List Statement)
    (statement : Statement) :
    visitAll count first (statements ++ [statement]) =
      visit count (visitAll count first statements) (statements.length, statement) := by
  simp [visitAll, Program.lines_append, List.foldl_append]

theorem visit_all_last (count : Nat) (first : Survey) (statements : List Statement) (opcode : Opcode)
    (id : SymbolId) (line : Line) (lookup : Survey → Option Line) (absent : lookup first = none)
    (named : ∀ survey line statement, lookup (visit count survey (line, statement)) =
      if statement.Names opcode id then some line else lookup survey) :
    lookup (visitAll count first statements) = some line ↔
      Program.LastNaming ⟨statements⟩ opcode id line := by
  induction statements using List.reverseRecOn with
  | nil => simp [visitAll, Program.lines, Program.LastNaming, Program.get?, absent]
  | append_singleton statements statement ih =>
      rw [visit_all_append, named, Program.last_naming_append]
      split
      · rw [Option.some.injEq, eq_comm]
      · exact ih

theorem visit_all_leaders (count : Nat) (first : Survey) (statements : List Statement) (line : Line) :
    line ∈ (visitAll count first statements).marks.leaders ↔
      line ∈ first.marks.leaders ∨
      (∃ statement, Program.get? ⟨statements⟩ line = some statement ∧ statement.opcode = .func) ∨
      (line < count ∧ ∃ before statement, line = before + 1 ∧
        Program.get? ⟨statements⟩ before = some statement ∧
        (statement.opcode.isJump ∨ statement.opcode = .ret)) := by
  induction statements using List.reverseRecOn with
  | nil => simp [visitAll, Program.lines, Program.get?]
  | append_singleton statements added ih =>
      rw [visit_all_append, visit_leaders, ih]
      simp only [Program.get_append_cases]
      constructor
      · rintro ((old | ⟨statement, found, opcode⟩ | ⟨bound, before, statement, next, found, ends⟩) |
          ⟨opcode, last⟩ | ⟨bound, next, ends⟩)
        · exact Or.inl old
        · exact Or.inr (Or.inl ⟨statement, Or.inl found, opcode⟩)
        · exact Or.inr (Or.inr ⟨bound, before, statement, next, Or.inl found, ends⟩)
        · exact Or.inr (Or.inl ⟨added, Or.inr ⟨last, rfl⟩, opcode⟩)
        · exact Or.inr (Or.inr ⟨bound, _, added, next, Or.inr ⟨rfl, rfl⟩, ends⟩)
      · rintro (old | ⟨statement, found | ⟨last, rfl⟩, opcode⟩ |
          ⟨bound, before, statement, next, found | ⟨rfl, rfl⟩, ends⟩)
        · exact Or.inl (Or.inl old)
        · exact Or.inl (Or.inr (Or.inl ⟨statement, found, opcode⟩))
        · exact Or.inr (Or.inl ⟨opcode, last⟩)
        · exact Or.inl (Or.inr (Or.inr ⟨bound, before, statement, next, found, ends⟩))
        · exact Or.inr (Or.inr ⟨bound, next, ends⟩)

theorem visit_all_jumps (count : Nat) (first : Survey) (statements : List Statement) :
    (visitAll count first statements).jumps = first.jumps ++
      (Program.lines ⟨statements⟩).filterMap fun (line, statement) =>
        statement.jumpTarget?.map fun label => (line, label) := by
  induction statements using List.reverseRecOn with
  | nil => simp [visitAll, Program.lines]
  | append_singleton statements statement ih =>
      rw [visit_all_append, visit_jumps, ih, Program.lines_append, List.filterMap_append]
      cases target : statement.jumpTarget? <;> simp [target]

end Survey

theorem resolve_ok (marks : Landmarks) (line : Line) (label : SymbolId) (target : Line) :
    marks.resolve line label = .ok target ↔ marks.labels[label]? = some target := by
  unfold resolve
  cases marks.labels[label]? <;> simp

structure Resolves (marks : Landmarks) (jumps : List (Line × SymbolId)) (resolved : Landmarks) :
    Prop where
  labels : resolved.labels = marks.labels
  entries : resolved.entries = marks.entries
  targets : ∀ jump ∈ jumps, ∃ target, marks.labels[jump.2]? = some target
  leaders : ∀ line, line ∈ resolved.leaders ↔
    line ∈ marks.leaders ∨ ∃ jump ∈ jumps, marks.labels[jump.2]? = some line

theorem resolve_all_resolves (marks resolved : Landmarks) (jumps : List (Line × SymbolId))
    (succeeded : marks.resolveAll jumps = .ok resolved) : Resolves marks jumps resolved := by
  induction jumps generalizing marks with
  | nil =>
      obtain rfl := Except.ok.inj succeeded
      exact ⟨rfl, rfl, by simp, by simp⟩
  | cons jump rest ih =>
      obtain ⟨source, label⟩ := jump
      unfold resolveAll at succeeded
      split at succeeded
      next target found =>
        rw [resolve_ok] at found
        obtain ⟨labels, entries, targets, leaders⟩ := ih (marks.addLeader target) succeeded
        refine ⟨labels, entries, ?_, ?_⟩
        · intro jump member
          rcases List.mem_cons.mp member with rfl | later
          · exact ⟨target, found⟩
          · exact targets jump later
        · intro line
          rw [leaders, mem_add_leader]
          simp only [List.mem_cons, exists_eq_or_imp, found, Option.some.injEq, or_assoc, addLeader]
          rw [eq_comm]
      next => cases succeeded

theorem resolve_all_succeeds (marks : Landmarks) (jumps : List (Line × SymbolId))
    (targets : ∀ jump ∈ jumps, ∃ target, marks.labels[jump.2]? = some target) :
    ∃ resolved, marks.resolveAll jumps = .ok resolved := by
  induction jumps generalizing marks with
  | nil => exact ⟨marks, rfl⟩
  | cons jump rest ih =>
      obtain ⟨target, found⟩ := targets jump List.mem_cons_self
      have resolved := (resolve_ok marks jump.1 jump.2 target).mpr found
      obtain ⟨final, succeeded⟩ := ih (marks.addLeader target) fun later member =>
        targets later (List.mem_cons_of_mem jump member)
      refine ⟨final, ?_⟩
      rw [resolveAll, resolved]
      exact succeeded

def survey (program : Program) : Survey :=
  Survey.visitAll program.size (Survey.start program) program.statements

theorem collect_eq (program : Program) :
    collect program = (survey program).marks.resolveAll (survey program).jumps := rfl

theorem survey_labels (program : Program) (label : SymbolId) (line : Line) :
    (survey program).marks.labels[label]? = some line ↔ program.LastNaming .label label line := by
  have absent : (Survey.start program).marks.labels = ∅ := by
    unfold Survey.start
    split <;> rfl
  exact Survey.visit_all_last _ _ _ .label label line (fun survey => survey.marks.labels[label]?)
    (by simp [absent]) fun survey line statement => Survey.visit_labels _ survey line statement label

theorem survey_entries (program : Program) (function : SymbolId) (line : Line) :
    (survey program).marks.entries[function]? = some line ↔
      program.LastNaming .func function line := by
  have absent : (Survey.start program).marks.entries = ∅ := by
    unfold Survey.start
    split <;> rfl
  exact Survey.visit_all_last _ _ _ .func function line
    (fun survey => survey.marks.entries[function]?) (by simp [absent])
    fun survey line statement => Survey.visit_entries _ survey line statement function

theorem start_leaders (program : Program) (line : Line) :
    line ∈ (Survey.start program).marks.leaders ↔ line = 0 ∧ 0 < program.size := by
  unfold Survey.start
  split
  next empty =>
    have none : program.size = 0 := by simpa [Program.size, Program.isEmpty] using empty
    simp [Landmarks.empty, none]
  next nonempty =>
    have some : 0 < program.size := by
      rw [Program.isEmpty, List.isEmpty_iff] at nonempty
      exact List.length_pos_iff.mpr nonempty
    simp [mem_add_leader, Landmarks.empty, some]

theorem mem_survey_jumps (program : Program) (line : Line) (label : SymbolId) :
    (line, label) ∈ (survey program).jumps ↔
      ∃ statement, program.get? line = some statement ∧ statement.jumpTarget? = some label := by
  have none : (Survey.start program).jumps = [] := by
    unfold Survey.start
    rfl
  rw [survey, Survey.visit_all_jumps, none, List.nil_append]
  simp [Program.lines, Program.get?, List.mem_zipIdx_iff_getElem?]

structure Describes (program : Program) (marks : Landmarks) : Prop where
  leaders : ∀ line, line ∈ marks.leaders ↔ program.Leader line
  labels : ∀ label line,
    marks.labels[label]? = some line ↔ program.LastNaming .label label line
  entries : ∀ function line,
    marks.entries[function]? = some line ↔ program.LastNaming .func function line
  targets : ∀ line statement label, program.get? line = some statement →
    statement.jumpTarget? = some label → ∃ target, program.LastNaming .label label target

theorem collect_describes (program : Program) (marks : Landmarks)
    (collected : collect program = .ok marks) : Describes program marks := by
  rw [collect_eq] at collected
  obtain ⟨labels, entries, targets, leaders⟩ := resolve_all_resolves _ _ _ collected
  refine ⟨?_, ?_, ?_, ?_⟩
  · intro line
    rw [leaders, survey, Survey.visit_all_leaders, start_leaders]
    simp only [Program.Leader, or_assoc]
    refine or_congr_right (or_congr_right (or_congr_right ?_))
    constructor
    · rintro ⟨⟨source, label⟩, member, target⟩
      obtain ⟨statement, found, jumps⟩ := (mem_survey_jumps program source label).mp member
      exact ⟨source, statement, label, found, jumps, (survey_labels program label line).mp target⟩
    · rintro ⟨source, statement, label, found, jumps, target⟩
      exact ⟨(source, label), (mem_survey_jumps program source label).mpr ⟨statement, found, jumps⟩,
        (survey_labels program label line).mpr target⟩
  · intro label line
    rw [labels, survey_labels]
  · intro function line
    rw [entries, survey_entries]
  · intro line statement label found jumps
    obtain ⟨target, resolved⟩ := targets (line, label)
      ((mem_survey_jumps program line label).mpr ⟨statement, found, jumps⟩)
    exact ⟨target, (survey_labels program label target).mp resolved⟩

theorem collect_succeeds (program : Program)
    (targets : ∀ line statement label, program.get? line = some statement →
      statement.jumpTarget? = some label → ∃ target, program.LastNaming .label label target) :
    ∃ marks, collect program = .ok marks := by
  apply resolve_all_succeeds
  rintro ⟨line, label⟩ member
  obtain ⟨statement, found, jumps⟩ := (mem_survey_jumps program line label).mp member
  obtain ⟨target, last⟩ := targets line statement label found jumps
  exact ⟨target, (survey_labels program label target).mpr last⟩

theorem leader_lt_size (program : Program) (line : Line) (leader : program.Leader line) :
    line < program.size := by
  rcases leader with ⟨rfl, nonempty⟩ | ⟨statement, found, _⟩ | ⟨bound, _⟩ | ⟨_, _, label, _, _, last⟩
  · exact nonempty
  · exact program.get_lt_size line statement found
  · exact bound
  · exact program.last_naming_lt_size .label label line last

def nextLeader? (marks : Landmarks) (start : Line) : Option Line :=
  marks.leaders.toList.find? fun leader => start < leader

theorem last_line_eq (marks : Landmarks) (count : Nat) (start : Line) :
    marks.lastLine count start = ((marks.nextLeader? start).getD count) - 1 := by
  unfold lastLine nextLeader?
  cases marks.leaders.toList.find? fun leader => start < leader <;> rfl

theorem next_leader_some (marks : Landmarks) (start next : Line)
    (found : marks.nextLeader? start = some next) :
    next ∈ marks.leaders ∧ start < next ∧ ∀ line ∈ marks.leaders, start < line → next ≤ line := by
  obtain ⟨less, earlier, later, split, before⟩ := List.find?_eq_some_iff_append.mp found
  have ordered := Std.ExtTreeSet.ordered_toList (t := marks.leaders)
  rw [split, List.pairwise_append, List.pairwise_cons] at ordered
  refine ⟨?_, by simpa using less, ?_⟩
  · rw [← Std.ExtTreeSet.mem_toList, split]
    simp
  · intro line member after
    rw [← Std.ExtTreeSet.mem_toList, split, List.mem_append, List.mem_cons] at member
    rcases member with old | rfl | rest
    · have notAfter := before line old
      simp [after] at notAfter
    · exact Nat.le_refl line
    · exact Nat.le_of_lt (Nat.compare_eq_lt.mp (ordered.2.1.1 line rest))

theorem next_leader_none (marks : Landmarks) (start : Line)
    (absent : marks.nextLeader? start = none) : ∀ line ∈ marks.leaders, line ≤ start := by
  intro line member
  have notAfter := List.find?_eq_none.mp absent line (Std.ExtTreeSet.mem_toList.mpr member)
  simpa using notAfter

theorem last_line_spec (program : Program) (marks : Landmarks) (describes : Describes program marks)
    (start : Line) (bound : start < program.size) :
    start ≤ marks.lastLine program.size start ∧ marks.lastLine program.size start < program.size ∧
    (∀ line, start < line → line ≤ marks.lastLine program.size start → line ∉ marks.leaders) ∧
    (marks.lastLine program.size start + 1 = program.size ∨
      marks.lastLine program.size start + 1 ∈ marks.leaders) := by
  rw [last_line_eq]
  cases found : marks.nextLeader? start with
  | none =>
      have before := next_leader_none marks start found
      simp only [Option.getD_none]
      refine ⟨by lia, by lia, ?_, by lia⟩
      intro line after _ member
      have early := before line member
      lia
  | some next =>
      obtain ⟨member, after, first⟩ := next_leader_some marks start next found
      have nextBound := leader_lt_size program next ((describes.leaders next).mp member)
      have joined : next - 1 + 1 = next := Nat.sub_add_cancel (by lia)
      simp only [Option.getD_some, joined]
      refine ⟨by lia, by lia, ?_, Or.inr member⟩
      intro line late early leader
      have least := first line leader late
      lia

end Landmarks

end ThreeAddress
