import ThreeAddress.Proofs.Flow.Enclosure

set_option autoImplicit false

namespace ThreeAddress

theorem Statement.callee_names (statement : Statement) (function : SymbolId) :
    statement.callee? = some function ↔ statement.Names .call function := by
  unfold callee? Names
  by_cases call : statement.opcode = .call
  · simp [call]
  · simp [call]

namespace Program

def CallsFunction (program : Program) (function : SymbolId) (line : Line) : Prop :=
  ∃ statement, program.get? line = some statement ∧ statement.callee? = some function

structure CallSites (program : Program) (function : SymbolId) (lines : List Line) : Prop where
  ascending : lines.Pairwise fun line later => line < later
  complete : ∀ line, line ∈ lines ↔ program.CallsFunction function line

structure Locates (program : Program) (opcode : Opcode) (table : Std.ExtTreeMap SymbolId Line) : Prop where
  last : ∀ id line, table[id]? = some line ↔ program.LastNaming opcode id line
  keys : ∀ id, id ∈ table ↔ ∃ line statement, program.get? line = some statement ∧ statement.Names opcode id

structure NearestEntry (program : Program) (line start : Line) (statement : Statement) : Prop where
  above : start ≤ line
  found : program.get? start = some statement
  entry : statement.opcode = .func
  closest : ∀ between other, start < between → between ≤ line → program.get? between = some other →
    other.opcode ≠ .func

def Unopened (program : Program) (line : Line) : Prop :=
  ∀ start statement, start ≤ line → program.get? start = some statement → statement.opcode ≠ .func

theorem call_sites_unique (program : Program) (function : SymbolId) (lines others : List Line)
    (left : program.CallSites function lines) (right : program.CallSites function others) : lines = others := by
  have distinct : ∀ sites : List Line, sites.Pairwise (fun line later => line < later) → sites.Nodup := by
    intro sites ascending
    exact ascending.imp Nat.ne_of_lt
  have permuted : lines.Perm others := by
    rw [List.perm_ext_iff_of_nodup (distinct lines left.ascending) (distinct others right.ascending)]
    intro line
    rw [left.complete, right.complete]
  exact permuted.eq_of_pairwise (fun _ _ _ _ less greater => absurd less (Nat.lt_asymm greater)) left.ascending
    right.ascending

def callers (program : Program) (function : SymbolId) : List Line :=
  (program.lines.filter fun (_, statement) => statement.callee? = some function).map Prod.fst

theorem callers_append (statements : List Statement) (added : Statement) (function : SymbolId) :
    callers ⟨statements ++ [added]⟩ function =
      callers ⟨statements⟩ function ++ if added.Names .call function then [statements.length] else [] := by
  simp only [callers, lines_append, List.filter_append, List.map_append, Statement.callee_names]
  by_cases calls : added.Names .call function
  · simp [calls]
  · simp [calls]

theorem callers_sites (program : Program) (function : SymbolId) :
    program.CallSites function (program.callers function) := by
  constructor
  · rw [callers, List.pairwise_map]
    exact program.lines_sorted.filter _
  · intro line
    simp [callers, CallsFunction, lines, get?, List.mem_zipIdx_iff_getElem?]

theorem nearest_entry_unique (program : Program) (line start other : Line) (statement opening : Statement)
    (left : program.NearestEntry line start statement) (right : program.NearestEntry line other opening) :
    statement = opening := by
  rcases Nat.lt_trichotomy start other with before | same | behind
  · exact absurd right.entry (left.closest other opening before right.above right.found)
  · subst same
    exact Option.some.inj (left.found.symm.trans right.found)
  · exact absurd left.entry (right.closest start statement behind left.above left.found)

theorem nearest_entry_cases (program : Program) (line : Line) :
    program.Unopened line ∨ ∃ start statement, program.NearestEntry line start statement := by
  -- By recursion on the line: where no function starts at it, the line above decides.
  by_cases here : ∃ statement, program.get? line = some statement ∧ statement.opcode = .func
  · obtain ⟨statement, found, entry⟩ := here
    refine Or.inr ⟨line, statement, Nat.le_refl line, found, entry, ?_⟩
    intro between other after upTo
    lia
  · have plain : ∀ statement, program.get? line = some statement → statement.opcode ≠ .func :=
      fun statement found entry => here ⟨statement, found, entry⟩
    cases line with
    | zero =>
        left
        intro start statement upTo
        obtain rfl : start = 0 := Nat.le_zero.mp upTo
        exact plain statement
    | succ line =>
        rcases nearest_entry_cases program line with unopened | ⟨start, statement, nearest⟩
        · left
          intro start statement upTo
          by_cases last : start = line + 1
          · subst last
            exact plain statement
          · exact unopened start statement (by lia)
        · refine Or.inr ⟨start, statement, Nat.le_succ_of_le nearest.above, nearest.found, nearest.entry, ?_⟩
          intro between other after upTo
          by_cases last : between = line + 1
          · subst last
            exact plain other
          · exact nearest.closest between other after (by lia)

theorem enclosed_nearest (program : Program) (line : Line) (function : SymbolId) :
    program.EnclosedBy line function ↔ line < program.size ∧
      ∃ start statement, program.NearestEntry line start statement ∧ statement.subject? = some function := by
  constructor
  · rintro ⟨bound, start, statement, above, found, ⟨entry, subject⟩, closest⟩
    exact ⟨bound, start, statement, ⟨above, found, entry, closest⟩, subject⟩
  · rintro ⟨bound, start, statement, ⟨above, found, entry, closest⟩, subject⟩
    exact ⟨bound, start, statement, above, found, ⟨entry, subject⟩, closest⟩

theorem unenclosed_iff (program : Program) (line : Line) :
    (∀ function, ¬ program.EnclosedBy line function) ↔
      program.size ≤ line ∨ program.Unopened line ∨
        ∃ start statement, program.NearestEntry line start statement ∧ statement.subject? = none := by
  simp only [enclosed_nearest]
  constructor
  · intro unenclosed
    by_cases beyond : program.size ≤ line
    · exact Or.inl beyond
    · rcases nearest_entry_cases program line with unopened | ⟨start, statement, nearest⟩
      · exact Or.inr (Or.inl unopened)
      · cases subject : statement.subject? with
        | none => exact Or.inr (Or.inr ⟨start, statement, nearest, subject⟩)
        | some function =>
            exact absurd ⟨Nat.lt_of_not_le beyond, start, statement, nearest, subject⟩ (unenclosed function)
  · rintro outside function ⟨bound, start, statement, nearest, subject⟩
    rcases outside with beyond | unopened | ⟨other, opening, nameless, absent⟩
    · lia
    · exact unopened start statement nearest.above nearest.found nearest.entry
    · rw [program.nearest_entry_unique line start other statement opening nearest nameless, absent] at subject
      cases subject

end Program

namespace Landmarks

namespace Survey

@[simp] theorem split_calls (survey : Survey) (count : Nat) (line : Line) (statement : Statement) :
    (survey.split count line statement).marks.calls = survey.marks.calls := by
  unfold split
  split <;> rfl

theorem name_calls (survey : Survey) (line : Line) (statement : Statement) (function : SymbolId) :
    (survey.name line statement).marks.calls[function]? =
      if statement.Names .call function then some ((survey.marks.calls[function]?).getD [] ++ [line])
      else survey.marks.calls[function]? := by
  unfold name
  split
  next opcode _ => simp [addLeader, Statement.Names, opcode]
  next opcode _ => simp [addLeader, addEntry, Statement.Names, opcode]
  next opcode _ => simp [addLabel, Statement.Names, opcode]
  next opcode subject =>
    simp only [addCall, Std.ExtTreeMap.getElem?_insert, Nat.compare_eq_eq, Statement.Names, opcode, subject,
      true_and, Option.some.injEq]
    split
    next same => rw [← same, Std.ExtTreeMap.getD_eq_getD_getElem?]
    next => rfl
  next _ _ _ other => rw [if_neg fun names => other function names.1 names.2]

theorem visit_calls (count : Nat) (survey : Survey) (line : Line) (statement : Statement) (function : SymbolId) :
    (visit count survey (line, statement)).marks.calls[function]? =
      if statement.Names .call function then some ((survey.marks.calls[function]?).getD [] ++ [line])
      else survey.marks.calls[function]? := by
  simp only [visit, jump_marks, split_calls]
  exact name_calls survey line statement function

theorem visit_all_calls (count : Nat) (first : Survey) (statements : List Statement) (function : SymbolId)
    (none : first.marks.calls = ∅) :
    (visitAll count first statements).marks.calls[function]? =
      if Program.callers ⟨statements⟩ function = [] then Option.none
      else some (Program.callers ⟨statements⟩ function) := by
  induction statements using List.reverseRecOn with
  | nil => simp [visitAll, Program.lines, Program.callers, none]
  | append_singleton statements added ih =>
      rw [visit_all_append, visit_calls, ih, Program.callers_append]
      by_cases names : added.Names .call function
      · by_cases first : Program.callers ⟨statements⟩ function = []
        · simp [names, first]
        · simp [names, first]
      · simp [names]

end Survey

theorem survey_calls (program : Program) (function : SymbolId) (lines : List Line) :
    (survey program).marks.calls[function]? = some lines ↔ lines ≠ [] ∧ program.CallSites function lines := by
  have none : (Survey.start program).marks.calls = ∅ := by
    unfold Survey.start
    split <;> rfl
  have sites := program.callers_sites function
  rw [survey, Survey.visit_all_calls _ _ _ _ none]
  by_cases uncalled : program.callers function = []
  · rw [if_pos uncalled]
    rw [uncalled] at sites
    constructor
    · intro impossible
      cases impossible
    · rintro ⟨nonempty, called⟩
      exact absurd (program.call_sites_unique function lines [] called sites) nonempty
  · rw [if_neg uncalled, Option.some.injEq]
    constructor
    · rintro rfl
      exact ⟨uncalled, sites⟩
    · rintro ⟨_, called⟩
      exact program.call_sites_unique function _ lines sites called

/-- What each table of the landmarks holds, said of the statements of the program and their lines.
The conditions leave no choice: what is in a table follows from them, and so does what is not. -/
structure Exact (program : Program) (marks : Landmarks) : Prop where
  leaders : ∀ line, line ∈ marks.leaders ↔ program.Leader line
  labels : program.Locates .label marks.labels
  entries : program.Locates .func marks.entries
  calls : ∀ function lines,
    marks.calls[function]? = some lines ↔ lines ≠ [] ∧ program.CallSites function lines
  called : ∀ function, function ∈ marks.calls ↔ ∃ line, program.CallsFunction function line
  enclosed : ∀ line function, marks.functionOf line = some function ↔ line < program.size ∧
    ∃ start statement, program.NearestEntry line start statement ∧ statement.subject? = some function
  unenclosed : ∀ line, marks.functionOf line = none ↔ program.size ≤ line ∨ program.Unopened line ∨
    ∃ start statement, program.NearestEntry line start statement ∧ statement.subject? = none

theorem locates_of_last (program : Program) (opcode : Opcode) (table : Std.ExtTreeMap SymbolId Line)
    (last : ∀ id line, table[id]? = some line ↔ program.LastNaming opcode id line) :
    program.Locates opcode table := by
  refine ⟨last, ?_⟩
  intro id
  rw [← program.last_naming_get, Std.ExtTreeMap.mem_iff_isSome_getElem?, Option.isSome_iff_exists]
  simp only [last]

theorem collect_calls (program : Program) (marks : Landmarks) (collected : collect program = .ok marks)
    (function : SymbolId) (lines : List Line) :
    marks.calls[function]? = some lines ↔ lines ≠ [] ∧ program.CallSites function lines := by
  rw [collect_eq] at collected
  rw [resolve_all_frame _ marks _ collected]
  exact survey_calls program function lines

theorem calls_keys (program : Program) (marks : Landmarks)
    (calls : ∀ function lines,
      marks.calls[function]? = some lines ↔ lines ≠ [] ∧ program.CallSites function lines)
    (function : SymbolId) : function ∈ marks.calls ↔ ∃ line, program.CallsFunction function line := by
  have sites := program.callers_sites function
  rw [Std.ExtTreeMap.mem_iff_isSome_getElem?, Option.isSome_iff_exists]
  simp only [calls]
  constructor
  · rintro ⟨lines, nonempty, called⟩
    obtain ⟨line, member⟩ := List.exists_mem_of_ne_nil lines nonempty
    exact ⟨line, (called.complete line).mp member⟩
  · rintro ⟨line, called⟩
    exact ⟨program.callers function, List.ne_nil_of_mem ((sites.complete line).mpr called), sites⟩

theorem landmarks_exact (program : Program) (marks : Landmarks) (collected : collect program = .ok marks) :
    Exact program marks := by
  have describes := collect_describes program marks collected
  have calls := collect_calls program marks collected
  have enclosed := function_of_iff program marks collected
  refine ⟨describes.leaders, locates_of_last program .label marks.labels describes.labels,
    locates_of_last program .func marks.entries describes.entries, calls, calls_keys program marks calls, ?_, ?_⟩
  · intro line function
    rw [enclosed, program.enclosed_nearest]
  · intro line
    rw [Option.eq_none_iff_forall_ne_some, ← program.unenclosed_iff]
    simp only [ne_eq, enclosed]

/-- Code before the first function, a function that starts twice and one without a name, a label
that stands twice and is jumped to from above both places, and two calls of one function. -/
def patchwork : Program :=
  let name (id : SymbolId) (ty : ValueType) : Option Operand := some (.symbol ⟨id, ty⟩)
  ⟨[⟨.long, .call, name 1 .int, none, none⟩,
    ⟨.void, .func, name 1 .int, none, none⟩,
    ⟨.long, .jumpZero, name 2 .int, none, name 3 .void⟩,
    ⟨.void, .label, name 3 .void, none, none⟩,
    ⟨.long, .call, name 1 .int, none, name 2 .int⟩,
    ⟨.void, .func, some (.immediate (.bool true)), none, none⟩,
    ⟨.long, .assign, some (.immediate (.int 1)), none, name 2 .int⟩,
    ⟨.void, .label, name 3 .void, none, none⟩,
    ⟨.void, .func, name 1 .int, none, none⟩,
    ⟨.void, .ret, name 2 .int, none, none⟩]⟩

theorem patchwork_exact : ∃ marks, collect patchwork = .ok marks ∧ Exact patchwork marks ∧
    marks.leaders.toList = [0, 1, 3, 5, 7, 8] ∧ marks.labels.toList = [(3, 7)] ∧ marks.entries.toList = [(1, 8)] ∧
    marks.calls.toList = [(1, [0, 4])] ∧
    (List.range 11).map marks.functionOf =
      [none, some 1, some 1, some 1, some 1, none, none, none, some 1, some 1, none] := by
  have tables : (collect patchwork).toOption.map (fun marks =>
      (marks.leaders.toList, marks.labels.toList, marks.entries.toList, marks.calls.toList,
        (List.range 11).map marks.functionOf)) =
      some ([0, 1, 3, 5, 7, 8], [(3, 7)], [(1, 8)], [(1, [0, 4])],
        [none, some 1, some 1, some 1, some 1, none, none, none, some 1, some 1, none]) := rfl
  cases collected : collect patchwork with
  | error reason => simp [collected, Except.toOption] at tables
  | ok marks =>
      simp only [collected, Except.toOption, Option.map_some, Option.some.injEq, Prod.mk.injEq] at tables
      exact ⟨marks, rfl, landmarks_exact patchwork marks collected, tables⟩

end Landmarks

end ThreeAddress
