import ThreeAddress.Proofs.Lowering.Discards
import ThreeAddress.Proofs.Lowering.Failure
import ThreeAddress.Proofs.Lowering.Ledger

set_option autoImplicit false

namespace ThreeAddress

/-- Assigned once and read at most once, later, with nothing but straight code in between. -/
structure Linear (code : List Statement) (id : SymbolId) : Prop where
  defined : definitions code id = 1
  read : readings code id ≤ 1
  order : ∀ (line later : Line) (definition use : Statement), code[line]? = some definition → code[later]? = some use →
    definition.Defines id → 0 < use.readings id →
    line < later ∧ ∀ (between : Line) (statement : Statement), line < between → between < later →
      code[between]? = some statement → statement.opcode.isPlain = true

namespace Lower

theorem lines_unique (holds : Statement → Bool) (code : List Statement) (once : code.countP holds ≤ 1)
    (line other : Line) (first second : Statement) (found : code[line]? = some first)
    (foundOther : code[other]? = some second) (one : holds first = true) (two : holds second = true) :
    line = other := by
  induction code generalizing line other with
  | nil => cases found
  | cons head rest ih =>
      rw [List.countP_cons] at once
      have later : ∀ (line : Line) (statement : Statement), rest[line]? = some statement →
          holds statement = true → 0 < rest.countP holds := fun _ statement found holds =>
        List.countP_pos_iff.mpr ⟨statement, List.mem_of_getElem? found, holds⟩
      cases line with
      | zero =>
          cases other with
          | zero => rfl
          | succ other =>
              obtain rfl : head = first := Option.some.inj found
              rw [if_pos one] at once
              have more := later other second foundOther two
              lia
      | succ line =>
          cases other with
          | zero =>
              obtain rfl : head = second := Option.some.inj foundOther
              rw [if_pos two] at once
              have more := later line first found one
              lia
          | succ other => rw [ih (by lia) line other found foundOther]

theorem reading_lines (code : List Statement) (id : SymbolId) :
    code.countP (fun statement => 0 < statement.readings id) ≤ readings code id := by
  induction code with
  | nil => exact Nat.zero_le _
  | cons head rest ih =>
      rw [List.countP_cons, readings, List.flatMap_cons, List.countP_append]
      by_cases read : 0 < head.readings id
      · rw [if_pos (by simpa using read)]
        exact (Nat.add_le_add ih read).trans_eq (Nat.add_comm _ _)
      · rw [if_neg (by simpa using read)]
        exact ih.trans (Nat.le_add_left _ _)

theorem linear_unread (code : List Statement) (id : SymbolId) (defined : definitions code id = 1)
    (unread : readings code id = 0) : Linear code id := by
  refine ⟨defined, by lia, ?_⟩
  intro line later definition use _ found _ reads
  have lines := reading_lines code id
  have positive : 0 < code.countP fun statement => 0 < statement.readings id :=
    List.countP_pos_iff.mpr ⟨use, List.mem_of_getElem? found, by simpa using reads⟩
  lia

theorem linear_spent (code : List Statement) (id : SymbolId) (spent : Spent code id) : Linear code id := by
  refine ⟨spent.defined, spent.read.le, ?_⟩
  intro line later definition use found foundUse defines reads
  obtain ⟨early, start, between, stop, late, rfl, starts, stops, straight⟩ := spent.straight
  have first : line = early.length :=
    lines_unique _ _ spent.defined.le line early.length definition start found (by simp) (by simpa using defines)
      (by simpa using starts)
  have second : later = early.length + (between.length + 1) := by
    apply lines_unique _ _ ((reading_lines _ id).trans spent.read.le) later _ use stop foundUse _
      (by simpa using reads) (by simpa using stops)
    simp
  refine ⟨by lia, ?_⟩
  intro middle statement above below inside
  obtain ⟨offset, rfl⟩ : ∃ offset, middle = early.length + (offset + 1) := ⟨middle - early.length - 1, by lia⟩
  rw [List.getElem?_append_right (by lia), Nat.add_sub_cancel_left, List.getElem?_cons_succ,
    List.getElem?_append_left (by lia)] at inside
  exact straight statement (List.mem_of_getElem? inside)

theorem ledger_linear (known : Nat) (spare : SymbolId → Prop) (code : List Statement) (table : SymbolTable)
    (waiting : Multiset SymbolId) (ledger : Ledger known spare code table waiting) (id : SymbolId)
    (temporary : table.Temporary known id) : Linear code id := by
  rcases ledger.settled id temporary with waits | spent | ⟨⟨defined, unread⟩, _⟩
  · exact linear_unread code id (ledger.waits id waits).defined (ledger.waits id waits).unread
  · exact linear_spent code id spent
  · exact linear_unread code id defined unread

theorem ledger_start (table : SymbolTable) (spare : SymbolId → Prop) : Ledger table.size spare [] table 0 := by
  refine ⟨Nat.le_refl _, fun _ _ => ⟨rfl, rfl⟩, Multiset.nodup_zero, by simp, by simp, ?_⟩
  exact fun id temporary => absurd temporary (temporary_beyond table id)

theorem balanced_begun (known : Nat) (spare : SymbolId → Prop) (start : List Statement) (id : SymbolId)
    (symbol : Symbol) (state : Lowering) (found : state.table.get? id = some symbol) (kind : symbol.kind = .function)
    (balanced : Balanced known spare start (state, 0)) :
    Balanced known spare start (begun id symbol state, 0) := by
  obtain ⟨code, program, ledger⟩ := balanced
  have reads : ∀ other, 0 < (entry id symbol).readings other → other = id := by
    intro other read
    simp [Statement.readings, Statement.operands, entry, Operand.symbolId?] at read
    grind
  have bound := state.table.get_le_size id symbol found
  refine ⟨code ++ [entry id symbol], ?_, ?_⟩
  · rw [begun, program, List.append_assoc]
  · apply ledger_add code (entry id symbol) state.table state.table 0 0 0 ledger _ (Or.inr rfl)
    apply adds_nothing (entry id symbol) state.table 0 (fun _ defines => by cases defines)
    · intro other beyond
      by_contra read
      have same := reads other (Nat.pos_of_ne_zero read)
      lia
    · rintro other ⟨_, temporary, there, waits⟩
      rw [Multiset.count_zero]
      by_contra read
      have same := reads other (Nat.pos_of_ne_zero read)
      grind

/-- The results of calls that stand as statements in the body of a function. -/
def Unclaimed (id : SymbolId) (root : Node) (state : Lowering) (temporary : SymbolId) : Prop :=
  ∃ symbol, state.table.get? id = some symbol ∧ Discards root (begun id symbol state) temporary

theorem function_ledger (id : SymbolId) (root : Node) (state : Lowering)
    (listed : ∀ symbol ∈ root.symbols, (state.table.get? symbol).isSome = true) :
    ∃ code waiting, ((function id root).final state).program.statements = state.program.statements ++ code ∧
      Ledger state.table.size (Unclaimed id root state) code ((function id root).final state).table waiting ∧
      ∀ after, function id root state = .ok () after → waiting = 0 := by
  have uncounted : ∀ ref ∈ root.references, later state.table.size ref = false := by
    intro ref member
    have carried : ref.id ∈ root.symbols := root.references_symbols ▸ List.mem_map_of_mem member
    obtain ⟨entry, found⟩ := Option.isSome_iff_exists.mp (listed ref.id carried)
    simpa [later] using state.table.get_le_size ref.id entry found
  by_cases callable : ∃ symbol, state.table.get? id = some symbol ∧ symbol.kind = .function
  · obtain ⟨symbol, found, kind⟩ := callable
    have ran := function_run id root state symbol found kind
    have leads := statement_leads root uncounted (begun id symbol state)
    have settles : ∀ remaining finished,
        Steps (later state.table.size) (Discards root (begun id symbol state)) (begun id symbol state, 0)
          (finished, remaining) →
        Balanced state.table.size (Unclaimed id root state) state.program.statements (finished, remaining) := by
      intro remaining finished steps
      exact balanced_steps state.program.statements _ _
        (steps_mono (fun _ discards => ⟨symbol, found, discards⟩) _ _ steps)
        (balanced_begun _ _ _ id symbol state found kind
          ⟨[], (List.append_nil _).symm, ledger_start state.table _⟩)
    cases lowered : statement root (begun id symbol state) with
    | ok u finished =>
        obtain ⟨code, program, ledger⟩ := settles 0 finished (leads.ok u finished lowered)
        rw [lowered] at ran
        rw [final, ran]
        exact ⟨code, 0, program, ledger, fun _ _ => rfl⟩
    | error cause stopped =>
        obtain ⟨remaining, steps⟩ := leads.error cause stopped lowered
        obtain ⟨code, program, ledger⟩ := settles remaining stopped steps
        rw [lowered] at ran
        rw [final, ran]
        exact ⟨code, ids remaining, program, ledger, fun _ succeeds => by cases succeeds⟩
  · have failed : functionSymbol id state = .error (.notAFunction id) state := by
      unfold functionSymbol
      grind
    have ran : function id root state = .error (.notAFunction id) state := by
      rw [function, bind_run, failed]
    rw [final, ran]
    exact ⟨[], 0, (List.append_nil _).symm, ledger_start state.table _, by simp⟩

def Allocates (before after : Lowering) (temporary : SymbolId) : Prop :=
  before.table.get? temporary = none ∧
    ∃ symbol, after.table.get? temporary = some symbol ∧ symbol.kind = .temporary

theorem allocates_temporary (before after : Lowering) (temporary : SymbolId)
    (allocates : Allocates before after temporary) : after.table.Temporary before.table.size temporary := by
  obtain ⟨absent, symbol, found, kind⟩ := allocates
  refine ⟨?_, symbol, found, kind⟩
  cases temporary with
  | zero => cases found
  | succ position => exact Nat.lt_succ_of_le (List.getElem?_eq_none_iff.mp absent)

theorem allocates_fresh (ty : ValueType) (state after : Lowering) (temporary : SymbolRef)
    (ran : freshTemporary ty state = .ok temporary after) : Allocates state after temporary.id := by
  obtain ⟨function, name, _, rfl, symbols, _⟩ := allocate_pushes .temporary ty state after temporary ran
  refine ⟨?_, _, (state.table.get_push after.table _ symbols _ _).mpr (Or.inr ⟨rfl, rfl⟩), rfl⟩
  simp [SymbolTable.get?, SymbolTable.size]

theorem temporaries_linear (id : SymbolId) (root : Node) (state : Lowering)
    (listed : ∀ symbol ∈ root.symbols, (state.table.get? symbol).isSome = true) :
    ∃ code, ((function id root).final state).program.statements = state.program.statements ++ code ∧
      (∀ temporary, Allocates state ((function id root).final state) temporary → Linear code temporary) ∧
      ∀ after, function id root state = .ok () after → ∀ temporary, Allocates state after temporary →
        readings code temporary = 0 → Unclaimed id root state temporary := by
  obtain ⟨code, waiting, program, ledger, empty⟩ := function_ledger id root state listed
  refine ⟨code, program, ?_, ?_⟩
  · intro temporary allocates
    exact ledger_linear _ _ code _ waiting ledger temporary (allocates_temporary state _ temporary allocates)
  · intro after ran temporary allocates unread
    rw [empty after ran, final_ok _ state after () ran] at ledger
    rcases ledger.settled temporary (allocates_temporary state after temporary allocates) with waits | spent | spared
    · simp at waits
    · rw [spent.read] at unread
      cases unread
    · exact spared.2

def nestedTable : SymbolTable :=
  ⟨[⟨"f", .int, .function, none⟩, ⟨"n", .int, .parameter, some 1⟩, ⟨"main", .void, .function, none⟩,
    ⟨"x", .int, .variable, some 3⟩], [⟨1, [2], []⟩, ⟨3, [], [4]⟩]⟩

def nestedBody : Node :=
  let x : Node := .identifier 4 .int
  let called (argument : Node) : Node := .binary .call .int (.identifier 1 .int) (.list .arguments [argument])
  let sum : Node := .binary (.arithmetic .add) .int (called x) (.number (.int 1))
  .list .statementList [called sum, .binary .assignment .void x (called (.number (.int 2)))]

theorem nested_linear :
    (∀ symbol ∈ nestedBody.symbols, (nestedTable.get? symbol).isSome = true) ∧
      ∃ code, ((function 3 nestedBody).final (.start nestedTable .empty)).program.statements = code ∧
        (∀ temporary ∈ [5, 6, 7, 8], Linear code temporary) ∧ readings code 7 = 0 ∧
        Unclaimed 3 nestedBody (.start nestedTable .empty) 7 := by
  have listed : ∀ symbol ∈ nestedBody.symbols, (nestedTable.get? symbol).isSome = true := by decide
  obtain ⟨code, program, linear, unread⟩ := temporaries_linear 3 nestedBody (.start nestedTable .empty) listed
  have emitted : ((function 3 nestedBody).final (.start nestedTable .empty)).program.statements = code := program
  have allocated : ∀ temporary ∈ [5, 6, 7, 8],
      Allocates (.start nestedTable .empty) ((function 3 nestedBody).final (.start nestedTable .empty)) temporary := by
    have kinds : ∀ temporary ∈ [5, 6, 7, 8], nestedTable.get? temporary = none ∧
        (((function 3 nestedBody).final (.start nestedTable .empty)).table.get? temporary).map Symbol.kind =
          some .temporary := by decide +kernel
    intro temporary member
    obtain ⟨absent, kind⟩ := kinds temporary member
    exact ⟨absent, Option.map_eq_some_iff.mp kind⟩
  have silent : readings code 7 = 0 := by
    rw [← emitted]
    decide +kernel
  refine ⟨listed, code, emitted, fun temporary member => linear temporary (allocated temporary member), silent, ?_⟩
  have succeeds : EStateM.run' (function 3 nestedBody) (.start nestedTable .empty) = some () := by decide +kernel
  cases ran : function 3 nestedBody (.start nestedTable .empty) with
  | ok u after =>
      have last := allocated 7 (by decide)
      rw [final_ok _ _ after u ran] at last
      exact unread after ran 7 last silent
  | error cause after =>
      delta EStateM.run' EStateM.run at succeeds
      rw [ran] at succeeds
      cases succeeds

end Lower

end ThreeAddress
