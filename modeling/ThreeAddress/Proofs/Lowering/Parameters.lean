import ThreeAddress.Proofs.Lowering.Visits

set_option autoImplicit false

namespace ThreeAddress

def Opcode.isCalling : Opcode → Bool
  | .param | .call => true
  | _ => false

def Node.called? : Node → Option (SymbolRef × Node)
  | .binary .call _ callee list => callee.reference?.map fun function => (function, list)
  | _ => none

namespace Program

def Does (program : Program) (line : Line) (opcode : Opcode) : Prop :=
  ∃ statement, program.get? line = some statement ∧ statement.opcode = opcode

/-- As many parameters from the first line on, and no more on either side. The lines before the
start do not count. -/
structure ParamRun (program : Program) (start first : Line) (count : Nat) : Prop where
  inside : start ≤ first
  params : ∀ k < count, program.Does (first + k) .param
  before : ∀ line, start ≤ line → line + 1 = first → ¬ program.Does line .param
  behind : ¬ program.Does (first + count) .param

theorem does_lt_size (program : Program) (line : Line) (opcode : Opcode) (does : program.Does line opcode) :
    line < program.size := by
  obtain ⟨statement, found, _⟩ := does
  exact program.get_lt_size line statement found

theorem does_unique (program : Program) (line : Line) (opcode other : Opcode) (does : program.Does line opcode)
    (also : program.Does line other) : opcode = other := by
  obtain ⟨statement, found, rfl⟩ := does
  obtain ⟨_, same, rfl⟩ := also
  rw [found] at same
  cases same
  rfl

theorem does_longer (program longer : Program) (grown : program.statements <+: longer.statements) (line : Line)
    (bound : line < program.size) (opcode : Opcode) : longer.Does line opcode ↔ program.Does line opcode := by
  have same : longer.get? line = program.get? line := by
    obtain ⟨code, appended⟩ := grown
    rw [get?, get?, ← appended, List.getElem?_append_left bound]
  rw [Does, Does, same]

theorem does_append (program longer : Program) (code : List Statement)
    (appended : longer.statements = program.statements ++ code) (line : Line) (opcode : Opcode) :
    longer.Does line opcode ↔ program.Does line opcode ∨
      ∃ offset statement, line = program.size + offset ∧ code[offset]? = some statement ∧
        statement.opcode = opcode := by
  by_cases old : line < program.size
  · rw [does_longer program longer ⟨code, appended.symm⟩ line old]
    constructor
    · exact Or.inl
    · rintro (does | ⟨offset, _, rfl, _⟩)
      · exact does
      · lia
  · have absent : ¬ program.Does line opcode := fun does => old (program.does_lt_size line opcode does)
    obtain ⟨offset, rfl⟩ := Nat.exists_eq_add_of_le (Nat.le_of_not_lt old)
    have found : longer.get? (program.size + offset) = code[offset]? := by
      rw [get?, appended, List.getElem?_append_right (Nat.le_of_not_lt old), size, Nat.add_sub_cancel_left]
    constructor
    · rintro ⟨statement, there, does⟩
      exact Or.inr ⟨offset, statement, rfl, found ▸ there, does⟩
    · rintro (does | ⟨other, statement, same, there, does⟩)
      · exact absurd does absent
      · obtain rfl : offset = other := by lia
        exact ⟨statement, found.trans there, does⟩

theorem param_run_longer (program longer : Program) (grown : program.statements <+: longer.statements)
    (start first : Line) (count : Nat) (bound : first + count < program.size)
    (run : program.ParamRun start first count) : longer.ParamRun start first count where
  inside := run.inside
  params k less := (program.does_longer longer grown _ (by lia) _).mpr (run.params k less)
  before line above next does :=
    run.before line above next ((program.does_longer longer grown _ (by lia) _).mp does)
  behind does := run.behind ((program.does_longer longer grown _ bound _).mp does)

end Program

namespace Lower

def passing (value : Operand) : Statement := ⟨value.ty.width, .param, some value, none, none⟩

def calling (function : SymbolRef) (result : Option Operand) : Statement :=
  ⟨function.ty.width, .call, some (.symbol function), none, result⟩

inductive Passed : Option ValueType → Operand → Lowering → Operand → Lowering → Prop where
  | coerced (ty : ValueType) (value : Operand) (temporary : SymbolRef) (line : Line) (state allocated after : Lowering)
      (wider : value.ty.widensTo ty = true) (fresh : freshTemporary ty state = .ok temporary allocated)
      (emitted : emit ⟨ty.width, .coerce, some value, none, some (.symbol temporary)⟩ allocated = .ok line after) :
      Passed (some ty) value state (.symbol temporary) after
  | unchanged (formal : Option ValueType) (value : Operand) (state : Lowering)
      (narrow : ∀ ty, formal = some ty → value.ty.widensTo ty = false) : Passed formal value state value state

def Untouched (before after : Lowering) : Prop :=
  ∃ code, before.Extends after code ∧ ∀ statement ∈ code, ∀ id, statement.Defines id → before.table.size < id

/-- The values of arguments, one after the other, as they are to be passed. What was computed for
one is untouched by what is computed for the others. -/
inductive Prepared : List Node → List ValueType → Lowering → List Operand → Lowering → Prop where
  | nil (formals : List ValueType) (state : Lowering) : Prepared [] formals state [] state
  | cons (item : Node) (items : List Node) (formals : List ValueType) (value actual : Operand) (actuals : List Operand)
      (state computed middle after : Lowering) (lowered : valueOf item state = .ok value computed)
      (passed : Passed formals.head? value computed actual middle) (untouched : Untouched middle after)
      (rest : Prepared items formals.tail middle actuals after) :
      Prepared (item :: items) formals state (actual :: actuals) after

theorem prepared_length (items : List Node) (formals : List ValueType) (state after : Lowering)
    (actuals : List Operand) (prepared : Prepared items formals state actuals after) :
    actuals.length = items.length := by
  induction prepared with
  | nil formals state => rfl
  | cons item items formals value actual actuals state computed middle after lowered passed untouched rest ih =>
      rw [List.length_cons, List.length_cons, ih]

def Calls (node : Node) (before prepared after : Lowering) : Prop :=
  ∃ function list actuals result, node.called? = some (function, list) ∧
    Prepared (list.items .arguments) (before.table.parameterTypes function.id) before actuals prepared ∧
    after.program.statements = prepared.program.statements ++ (actuals.map passing ++ [calling function result])

def CallAt (program : Program) (start : Line) (node : Node) (before : Lowering) (line : Line) : Prop :=
  ∃ function list actuals result prepared, node.called? = some (function, list) ∧
    Prepared (list.items .arguments) (before.table.parameterTypes function.id) before actuals prepared ∧
    prepared.program.statements ++ (actuals.map passing ++ [calling function result]) <+: program.statements ∧
    line = prepared.program.size + (list.items .arguments).length ∧
    program.ParamRun start prepared.program.size (list.items .arguments).length

theorem call_at_longer (program longer : Program) (grown : program.statements <+: longer.statements) (start : Line)
    (node : Node) (before : Lowering) (line : Line) (call : CallAt program start node before line) :
    CallAt longer start node before line := by
  obtain ⟨function, list, actuals, result, prepared, called, prepares, stands, place, run⟩ := call
  refine ⟨function, list, actuals, result, prepared, called, prepares, stands.trans grown, place, ?_⟩
  apply program.param_run_longer longer grown start _ _ _ run
  have count := prepared_length _ _ _ _ _ prepares
  have length := stands.length_le
  simp only [List.length_append, List.length_map, List.length_singleton] at length
  simp only [Program.size]
  lia

/-- Code in which parameters are passed to nothing but the calls from these sites. -/
structure Arranged (sites : Node → Lowering → Prop) (start program : Program) : Prop where
  grown : start.statements <+: program.statements
  closed : ∀ line, start.size ≤ line → program.Does line .param →
    program.Does (line + 1) .param ∨ program.Does (line + 1) .call
  calls : ∀ line, start.size ≤ line → program.Does line .call →
    ∃ node before, sites node before ∧ CallAt program start.size node before line
  placed : ∀ node before, sites node before → ∃ line, CallAt program start.size node before line

theorem arranged_congr (sites other : Node → Lowering → Prop) (start program : Program)
    (same : ∀ node before, sites node before ↔ other node before) (arranged : Arranged sites start program) :
    Arranged other start program := by
  have equal : sites = other := funext fun node => funext fun before => propext (same node before)
  exact equal ▸ arranged

theorem arranged_run (sites : Node → Lowering → Prop) (start program : Program)
    (arranged : Arranged sites start program) (first : Line) (count : Nat) (some : 0 < count)
    (run : program.ParamRun start.size first count) : program.Does (first + count) .call := by
  obtain ⟨last, rfl⟩ := Nat.exists_eq_succ_of_ne_zero (Nat.ne_of_gt some)
  have inside := run.inside
  rcases arranged.closed (first + last) (by lia) (run.params last (Nat.lt_succ_self last)) with param | call
  · exact absurd param run.behind
  · exact call

theorem arranged_start (program : Program) : Arranged (fun _ _ => False) program program where
  grown := List.prefix_refl _
  closed line above does := by
    have below := program.does_lt_size line _ does
    lia
  calls line above does := by
    have below := program.does_lt_size line _ does
    lia
  placed _ _ never := never.elim

theorem arranged_silent (sites : Node → Lowering → Prop) (start program longer : Program)
    (code : List Statement) (appended : longer.statements = program.statements ++ code)
    (silent : ∀ statement ∈ code, statement.opcode.isCalling = false) (arranged : Arranged sites start program) :
    Arranged sites start longer := by
  have grown : program.statements <+: longer.statements := ⟨code, appended.symm⟩
  have old : ∀ line opcode, opcode.isCalling = true → longer.Does line opcode → program.Does line opcode := by
    intro line opcode calling does
    rcases (program.does_append longer code appended line opcode).mp does with there | ⟨_, statement, _, found, rfl⟩
    · exact there
    · rw [silent statement (List.mem_of_getElem? found)] at calling
      cases calling
  have kept : ∀ line opcode, program.Does line opcode → longer.Does line opcode := fun line opcode does =>
    (program.does_append longer code appended line opcode).mpr (Or.inl does)
  refine ⟨arranged.grown.trans grown, ?_, ?_, ?_⟩
  · intro line above does
    exact (arranged.closed line above (old line _ rfl does)).imp (kept _ _) (kept _ _)
  · intro line above does
    obtain ⟨node, before, site, call⟩ := arranged.calls line above (old line _ rfl does)
    exact ⟨node, before, site, call_at_longer program longer grown start.size node before line call⟩
  · intro node before site
    obtain ⟨line, call⟩ := arranged.placed node before site
    exact ⟨line, call_at_longer program longer grown start.size node before line call⟩

theorem does_calling (program longer : Program) (actuals : List Operand) (function : SymbolRef)
    (result : Option Operand)
    (appended : longer.statements = program.statements ++ (actuals.map passing ++ [calling function result]))
    (line : Line) (opcode : Opcode) :
    longer.Does line opcode ↔ program.Does line opcode ∨
      opcode = .param ∧ program.size ≤ line ∧ line < program.size + actuals.length ∨
      opcode = .call ∧ line = program.size + actuals.length := by
  rw [program.does_append longer _ appended]
  apply or_congr Iff.rfl
  constructor
  · rintro ⟨offset, statement, rfl, found, rfl⟩
    by_cases param : offset < actuals.length
    · rw [List.getElem?_append_left (by simpa using param), List.getElem?_map, Option.map_eq_some_iff] at found
      obtain ⟨actual, _, rfl⟩ := found
      exact Or.inl ⟨rfl, by lia, by lia⟩
    · rw [List.getElem?_append_right (by simpa using param), List.length_map, List.getElem?_singleton] at found
      split_ifs at found with last
      cases found
      exact Or.inr ⟨rfl, by lia⟩
  · rintro (⟨rfl, above, below⟩ | ⟨rfl, rfl⟩)
    · obtain ⟨offset, rfl⟩ := Nat.exists_eq_add_of_le above
      have param : offset < actuals.length := by lia
      refine ⟨offset, passing actuals[offset], rfl, ?_, rfl⟩
      rw [List.getElem?_append_left (by simpa using param), List.getElem?_map, List.getElem?_eq_getElem param]
      rfl
    · exact ⟨actuals.length, calling function result, rfl, by simp, rfl⟩

theorem arranged_param_run (sites : Node → Lowering → Prop) (start program longer : Program)
    (arranged : Arranged sites start program) (actuals : List Operand) (function : SymbolRef) (result : Option Operand)
    (appended : longer.statements = program.statements ++ (actuals.map passing ++ [calling function result])) :
    longer.ParamRun start.size program.size actuals.length := by
  -- The parameters of a call are a run of their own, since all was closed where they start.
  have lines := does_calling program longer actuals function result appended
  refine ⟨arranged.grown.length_le, ?_, ?_, ?_⟩
  · intro k less
    exact (lines _ _).mpr (Or.inr (Or.inl ⟨rfl, by lia, by lia⟩))
  · intro line above next does
    rcases (lines line .param).mp does with old | ⟨_, behind, _⟩ | ⟨other, _⟩
    · rcases arranged.closed line above old with param | call
      · have below := program.does_lt_size _ _ param
        lia
      · have below := program.does_lt_size _ _ call
        lia
    · lia
    · cases other
  · intro does
    have call : longer.Does (program.size + actuals.length) .call := (lines _ _).mpr (Or.inr (Or.inr ⟨rfl, rfl⟩))
    cases longer.does_unique _ _ _ does call

theorem arranged_call (sites : Node → Lowering → Prop) (start : Program) (node : Node)
    (before prepared after : Lowering) (arranged : Arranged sites start prepared.program)
    (calls : Calls node before prepared after) :
    Arranged (fun other state => sites other state ∨ (other, state) = (node, before)) start after.program := by
  obtain ⟨function, list, actuals, result, called, prepares, appended⟩ := calls
  have count := prepared_length _ _ _ _ _ prepares
  have grown : prepared.program.statements <+: after.program.statements := ⟨_, appended.symm⟩
  have lines := does_calling prepared.program after.program actuals function result appended
  have run := arranged_param_run sites start _ after.program arranged actuals function result appended
  have own : CallAt after.program start.size node before (prepared.program.size + actuals.length) :=
    ⟨function, list, actuals, result, prepared, called, prepares, appended ▸ List.prefix_refl _, by rw [count],
      count ▸ run⟩
  refine ⟨arranged.grown.trans grown, ?_, ?_, ?_⟩
  · intro line above does
    rcases (lines line .param).mp does with old | ⟨_, behind, less⟩ | ⟨other, _⟩
    · exact (arranged.closed line above old).imp (fun param => (lines _ _).mpr (Or.inl param))
        fun call => (lines _ _).mpr (Or.inl call)
    · by_cases last : line + 1 = prepared.program.size + actuals.length
      · exact Or.inr ((lines _ _).mpr (Or.inr (Or.inr ⟨rfl, last⟩)))
      · exact Or.inl ((lines _ _).mpr (Or.inr (Or.inl ⟨rfl, by lia, by lia⟩)))
    · cases other
  · intro line above does
    rcases (lines line .call).mp does with old | ⟨other, _⟩ | ⟨_, rfl⟩
    · obtain ⟨site, state, member, call⟩ := arranged.calls line above old
      exact ⟨site, state, Or.inl member, call_at_longer _ _ grown start.size site state line call⟩
    · cases other
    · exact ⟨node, before, Or.inr rfl, own⟩
  · intro site state member
    rcases member with member | same
    · obtain ⟨line, call⟩ := arranged.placed site state member
      exact ⟨line, call_at_longer _ _ grown start.size site state line call⟩
    · cases same
      exact ⟨_, own⟩

end Lower

end ThreeAddress
