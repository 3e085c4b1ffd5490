import ThreeAddress.Proofs.DataFlow.Checked
import ThreeAddress.Proofs.Registration

set_option autoImplicit false

namespace ThreeAddress

namespace Program

def Dangling (program : Program) (line : Line) (label : SymbolId) : Prop :=
  (∃ statement, program.get? line = some statement ∧ statement.jumpTarget? = some label) ∧
    ∀ other statement, program.get? other = some statement → ¬ statement.Names .label label

structure FirstDangling (program : Program) (line : Line) (label : SymbolId) : Prop where
  dangling : program.Dangling line label
  first : ∀ other < line, ∀ wanted, ¬ program.Dangling other wanted

def Intact (program : Program) : Prop := ∀ line label, ¬ program.Dangling line label

theorem first_dangling_unique (program : Program) (line other : Line) (label wanted : SymbolId)
    (left : program.FirstDangling line label) (right : program.FirstDangling other wanted) :
    line = other ∧ label = wanted := by
  have same : line = other := by
    rcases Nat.lt_trichotomy line other with less | equal | greater
    · exact absurd left.dangling (right.first line less label)
    · exact equal
    · exact absurd right.dangling (left.first other greater wanted)
  subst same
  obtain ⟨⟨statement, found, target⟩, _⟩ := left.dangling
  obtain ⟨⟨again, foundAgain, targetAgain⟩, _⟩ := right.dangling
  obtain rfl := Option.some.inj (found.symm.trans foundAgain)
  exact ⟨rfl, Option.some.inj (target.symm.trans targetAgain)⟩

theorem intact_first (program : Program) (intact : program.Intact) (line : Line) (label : SymbolId) :
    ¬ program.FirstDangling line label := fun first => intact line label first.dangling

end Program

namespace Landmarks

theorem resolve_all_error (marks : Landmarks) (jumps : List (Line × SymbolId)) (reason : FlowError)
    (failed : marks.resolveAll jumps = .error reason) :
    ∃ early line label late, jumps = early ++ (line, label) :: late ∧ reason = .unresolvedLabel line label ∧
      marks.labels[label]? = none ∧ ∀ jump ∈ early, marks.labels[jump.2]? ≠ none := by
  induction jumps generalizing marks with
  | nil => cases failed
  | cons jump rest ih =>
      obtain ⟨line, label⟩ := jump
      cases found : marks.labels[label]? with
      | none =>
          simp only [resolveAll, resolve, found] at failed
          exact ⟨[], line, label, rest, rfl, (Except.error.inj failed).symm, found, by simp⟩
      | some target =>
          simp only [resolveAll, resolve, found] at failed
          obtain ⟨early, other, wanted, late, split, same, missing, resolved⟩ := ih (marks.addLeader target) failed
          refine ⟨(line, label) :: early, other, wanted, late, by rw [split]; rfl, same, missing, ?_⟩
          intro jump member
          rcases List.mem_cons.mp member with rfl | later
          · simp [found]
          · exact resolved jump later

theorem survey_jumps_sorted (program : Program) :
    (survey program).jumps.Pairwise fun jump later => jump.1 < later.1 := by
  have none : (Survey.start program).jumps = [] := by
    unfold Survey.start
    rfl
  rw [survey, Survey.visit_all_jumps, none, List.nil_append, List.pairwise_filterMap]
  refine program.lines_sorted.imp ?_
  rintro ⟨line, statement⟩ ⟨other, after⟩ less jump target later targetLater
  obtain ⟨label, _, rfl⟩ := Option.map_eq_some_iff.mp target
  obtain ⟨wanted, _, rfl⟩ := Option.map_eq_some_iff.mp targetLater
  exact less

theorem unresolved_iff (program : Program) (label : SymbolId) :
    (survey program).marks.labels[label]? = none ↔
      ∀ line statement, program.get? line = some statement → ¬ statement.Names .label label := by
  have present := program.last_naming_get .label label
  simp only [← survey_labels] at present
  rw [Option.eq_none_iff_forall_ne_some, ← not_exists, present]
  simp only [not_exists, not_and]

theorem collect_cases (program : Program) :
    (∃ line label, collect program = .error (.unresolvedLabel line label) ∧ program.FirstDangling line label) ∨
      ∃ marks, collect program = .ok marks ∧ program.Intact := by
  cases collected : collect program with
  | ok marks =>
      refine Or.inr ⟨marks, rfl, ?_⟩
      rintro line label ⟨⟨statement, found, target⟩, absent⟩
      obtain ⟨other, ⟨mark, here, names⟩, _⟩ :=
        (collect_describes program marks collected).targets line statement label found target
      exact absent other mark here names
  | error reason =>
      obtain ⟨early, line, label, late, split, rfl, missing, resolved⟩ :=
        resolve_all_error _ _ reason ((collect_eq program).symm.trans collected)
      have sorted := survey_jumps_sorted program
      rw [split] at sorted
      refine Or.inl ⟨line, label, rfl, ⟨(mem_survey_jumps program line label).mp (by simp [split]),
        (unresolved_iff program label).mp missing⟩, ?_⟩
      rintro other less wanted ⟨jumps, absent⟩
      have member := (mem_survey_jumps program other wanted).mpr jumps
      rw [split] at member
      rcases List.mem_append.mp member with before | behind
      · exact resolved _ before ((unresolved_iff program wanted).mpr absent)
      · rcases List.mem_cons.mp behind with same | after
        · exact Nat.ne_of_lt less (congrArg Prod.fst same)
        · have later := (List.pairwise_cons.mp (List.pairwise_append.mp sorted).2.1).1 _ after
          exact Nat.lt_asymm less later

end Landmarks

namespace FlowGraph

def FirstNamed (table : SymbolTable) (name : String) (function : SymbolId) : Prop :=
  table.IsNamed name function ∧ ∀ other, table.IsNamed name other → function ≤ other

def Entered (program : Program) (table : SymbolTable) (name : String) : Prop :=
  ∃ function, FirstNamed table name function ∧
    ∃ line statement, program.get? line = some statement ∧ statement.Names .func function

def Unentered (program : Program) (table : SymbolTable) (name : String) : Prop :=
  (∀ function, ¬ table.IsNamed name function) ∨
    ∃ function, FirstNamed table name function ∧
      ∀ line statement, program.get? line = some statement → ¬ statement.Names .func function

theorem entered_cases (program : Program) (table : SymbolTable) (consistent : table.Consistent) (name : String) :
    (Entered program table name ∧
      ∃ function start, table.findFunction? name = some function ∧ program.LastNaming .func function start) ∨
    (Unentered program table name ∧
      ∀ function start, table.findFunction? name = some function → ¬ program.LastNaming .func function start) := by
  cases found : table.findFunction? name with
  | none =>
      refine Or.inr ⟨Or.inl ?_, fun function start some => by cases some⟩
      intro function named
      obtain ⟨listed, _⟩ := (table.named_listed consistent name function).mp named
      obtain ⟨symbol, here, _, same⟩ := named
      exact (table.find_function_none name).mp found function listed symbol here same
  | some function =>
      have first := (table.find_function_iff consistent name function).mp found
      by_cases present : ∃ start, program.LastNaming .func function start
      · obtain ⟨start, last⟩ := present
        exact Or.inl ⟨⟨function, first, (program.last_naming_get .func function).mp ⟨start, last⟩⟩, function, start,
          rfl, last⟩
      · refine Or.inr ⟨Or.inr ⟨function, first, ?_⟩, ?_⟩
        · intro line statement here names
          exact present ((program.last_naming_get .func function).mpr ⟨line, statement, here, names⟩)
        · intro other start same last
          cases same
          exact present ⟨start, last⟩

theorem entered_excludes (program : Program) (table : SymbolTable) (name : String)
    (entered : Entered program table name) : ¬ Unentered program table name := by
  obtain ⟨function, ⟨named, least⟩, line, statement, found, names⟩ := entered
  rintro (none | ⟨other, ⟨namedOther, leastOther⟩, absent⟩)
  · exact none function named
  · have same : other = function := Nat.le_antisymm (leastOther function named) (least other namedOther)
    exact absent line statement found (same ▸ names)

theorem build_cases (program : Program) (table : SymbolTable) (consistent : table.Consistent) (name : String) :
    (∃ line label, build program table name = .error (.unresolvedLabel line label) ∧
      program.FirstDangling line label) ∨
    (build program table name = .error (.noEntryPoint name) ∧ program.Intact ∧ Unentered program table name) ∨
    ∃ graph, build program table name = .ok graph ∧ program.Intact ∧ Entered program table name := by
  rcases Landmarks.collect_cases program with ⟨line, label, collected, first⟩ | ⟨marks, collected, intact⟩
  · exact Or.inl ⟨line, label, by simp only [build, collected], first⟩
  · right
    rcases entered_cases program table consistent name with ⟨entered, function, start, named, last⟩ | ⟨missing, none⟩
    · obtain ⟨graph, built, _⟩ := build_from_entry program table name marks collected function start named last
      exact Or.inr ⟨graph, built, intact, entered⟩
    · refine Or.inl ⟨?_, intact, missing⟩
      have describes := Landmarks.collect_describes program marks collected
      have absent : entryLine? marks table name = Option.none := by
        rw [Option.eq_none_iff_forall_ne_some]
        intro start entry
        obtain ⟨function, named, last⟩ := (entry_line program marks describes table name start).mp entry
        exact none function start named last
      simp only [build, collected, absent]

/-- No access fails after a graph was built, and no label is missing in it. -/
structure Safe (program : Program) (table : SymbolTable) (graph : FlowGraph) : Prop where
  entry : ∃ root, graph.roots[0]? = some root ∧ root < graph.blocks.length
  labels : ∀ line statement, program.get? line = some statement →
    ∃ next, Construction.following program graph.landmarks line statement = .ok next
  order : graph.reversePostOrderChecked = some graph.reversePostOrder
  liveness : Liveness.computeChecked program table graph = some (Liveness.compute program table graph)

theorem build_safe (program : Program) (table : SymbolTable) (name : String) (graph : FlowGraph)
    (built : build program table name = .ok graph) : Safe program table graph := by
  obtain ⟨_, start, _, _, complete⟩ := build_complete program table name graph built
  refine ⟨?_, ?_, graph.reverse_post_order_checked, Liveness.compute_checked program table start graph complete⟩
  · obtain ⟨root, first, place⟩ := complete.entry
    exact ⟨root, by rw [← List.head?_eq_getElem?, first], start_of_lt graph.blocks root start place⟩
  · intro line statement found
    obtain ⟨lines, diagnostics, followed, _⟩ :=
      Construction.following_follow program graph.landmarks complete.describes line statement found
    exact ⟨(lines, diagnostics), followed⟩

structure Outcome (program : Program) (table : SymbolTable) (name : String) : Prop where
  unresolved : ∀ line label, build program table name = .error (.unresolvedLabel line label) ↔
    program.FirstDangling line label
  noEntry : ∀ wanted, build program table name = .error (.noEntryPoint wanted) ↔
    wanted = name ∧ program.Intact ∧ Unentered program table name
  succeeds : (∃ graph, build program table name = .ok graph) ↔ program.Intact ∧ Entered program table name
  checked : buildChecked program table name = some (build program table name)
  safe : ∀ graph, build program table name = .ok graph → Safe program table graph

theorem build_fails_exactly (program : Program) (additions : List Addition) (name : String) :
    Outcome program (Addition.performAll additions .empty) name := by
  have consistent := Addition.perform_all_consistent additions .empty SymbolTable.empty_consistent
  generalize Addition.performAll additions .empty = table at consistent ⊢
  have exclusive := entered_excludes program table name
  have checked := build_checked program table name
  have safe := build_safe program table name
  rcases build_cases program table consistent name with ⟨line, label, built, first⟩ | ⟨built, intact, missing⟩ |
    ⟨graph, built, intact, entered⟩
  · have broken : ¬ program.Intact := fun intact => program.intact_first intact line label first
    refine ⟨?_, by simp [built, broken], by simp [built, broken], checked, safe⟩
    intro other wanted
    rw [built]
    constructor
    · intro same
      cases same
      exact first
    · intro second
      obtain ⟨rfl, rfl⟩ := program.first_dangling_unique line other label wanted first second
      rfl
  · have outside : ¬ Entered program table name := fun entered => exclusive entered missing
    refine ⟨?_, by simp [built, intact, missing, eq_comm], by simp [built, outside], checked, safe⟩
    simp [built, program.intact_first intact]
  · refine ⟨?_, by simp [built, exclusive entered], by simp [built, intact, entered], checked, safe⟩
    simp [built, program.intact_first intact]

end FlowGraph

end ThreeAddress
