import ThreeAddress.Proofs.Lowering.Extents
import ThreeAddress.Proofs.Lowering.Simulation

set_option autoImplicit false

namespace ThreeAddress

universe u

variable {σ : Type u}

namespace Machine

open Lower

section Behind

variable {program : Program} {meaning : Interpretation σ} (front code : List Statement)
  (whole : program.statements = front ++ code) (low high : Nat) (confined : Confined low high [] code)
  (starts : ∀ first, code.head? = some first → first.opcode = .func)

include whole confined starts

theorem moves_behind (here next : Line × σ) (behind : front.length ≤ here.1)
    (moves : Moves program meaning here next) : front.length < next.1 := by
  -- Behind the body there are only whole functions, and their jumps stay behind it.
  obtain ⟨statement, found, _, goes⟩ := moves
  by_cases jumps : meaning.jumps statement here.2 = true
  · rw [if_pos jumps] at goes
    obtain ⟨_, label, target, _, latest⟩ := goes
    rw [Program.get?, whole, List.getElem?_append_right behind] at found
    have placed := (confined.closed statement (List.mem_of_getElem? found) label target).resolve_right
      List.not_mem_nil
    obtain ⟨mark, member, names⟩ := (mem_marks code label).mp placed
    obtain ⟨offset, marked⟩ := List.mem_iff_getElem?.mp member
    have later : 0 < offset := by
      cases offset with
      | zero =>
          have entry := starts mark (by rw [List.head?_eq_getElem?]; exact marked)
          rw [names.1] at entry
          cases entry
      | succ offset => exact Nat.succ_pos offset
    have line : program.get? (front.length + offset) = some mark := by
      rw [Program.get?, whole, List.getElem?_append_right (Nat.le_add_right _ _), Nat.add_sub_cancel_left]
      exact marked
    by_contra early
    exact latest (front.length + offset) mark (by lia) line names
  · rw [if_neg jumps] at goes
    rw [goes]
    exact Nat.lt_succ_of_le behind

theorem runs_behind (low' high' : Line) (steps : Nat) (here last : Line × σ) (behind : front.length ≤ here.1)
    (runs : Runs program meaning low' high' steps here last) : here = last ∨ front.length < last.1 := by
  induction runs with
  | refl here => exact Or.inl rfl
  | step _ here next last _ moves _ ih =>
      have after := moves_behind front code whole low high confined starts here next behind moves
      rcases ih (Nat.le_of_lt after) with same | further
      · exact Or.inr (same ▸ after)
      · exact Or.inr further

end Behind

end Machine

namespace Lower

/-- The states right behind the entry of a function, and right behind its body. -/
def BodyLowered (bodies : Bodies) (table : SymbolTable) (earlier : List SymbolId) (id : SymbolId)
    (entered finished : Lowering) : Prop :=
  ∃ before symbol, functions bodies.body earlier (Lowering.start table .empty) = .ok () before ∧
    functionSymbol id before = .ok symbol before ∧
    entered = begun id symbol before ∧
    statement (bodies.body id) entered = .ok () finished

structure Agrees (program : Program) (meaning : Interpretation σ) (body : Node)
    (entered finished : Lowering) : Prop where
  completes : ∀ s t, Machine.Reaches program meaning (entered.program.size, s) (finished.program.size, t) ↔
    Executes meaning body entered s (.completed t)
  returns : ∀ s t, (∃ line statement, entered.program.size ≤ line ∧ line < finished.program.size ∧
      program.get? line = some statement ∧ statement.opcode = .ret ∧
      Machine.Reaches program meaning (entered.program.size, s) (line, t)) ↔
    Executes meaning body entered s (.returned t)

section Body

variable (program : Program) (meaning : Interpretation σ) (distinct : (marks program.statements).Nodup)
  (body : Node) (entered finished : Lowering) (ran : statement body entered = .ok () finished)
  (code : List Statement) (whole : program.statements = finished.program.statements ++ code) (low high : Nat)
  (confined : Confined low high [] code)
  (starts : ∀ first, code.head? = some first → first.opcode = .func)

include distinct ran whole confined starts

theorem reaches_outcome (s : σ) (last : Line × σ)
    (reaches : Machine.Reaches program meaning (entered.program.size, s) last)
    (final : Machine.Final program entered.program.size finished.program.size last) :
    ∃ outcome, Executes meaning body entered s outcome ∧
      match outcome with
      | .completed t => (finished.program.size, t) = last ∨ finished.program.size < last.1
      | .returned t => last.2 = t ∧ last.1 < finished.program.size := by
  -- A run from the start of the body follows its execution. One that goes on behind the body
  -- does not come back.
  have placed : finished.program.statements <+: program.statements := ⟨code, whole.symm⟩
  obtain ⟨steps, runs⟩ := Machine.reaches_runs _ _ reaches
  obtain ⟨outcome, executes⟩ := Machine.runs_executes distinct body entered finished ran placed s steps last
    runs final
  have leaves := Machine.executes_leaves distinct body entered finished s outcome executes ran placed steps
    last runs final
  refine ⟨outcome, executes, ?_⟩
  cases outcome with
  | completed t =>
      obtain ⟨rest, _, onward⟩ := leaves
      exact Machine.runs_behind finished.program.statements code whole low high confined starts 0 program.size
        rest _ last (Nat.le_refl _) onward
  | returned t => exact ⟨leaves.1, leaves.2.2⟩

theorem body_agrees : Agrees program meaning body entered finished := by
  have placed : finished.program.statements <+: program.statements := ⟨code, whole.symm⟩
  have follows := reaches_outcome program meaning distinct body entered finished ran code whole low high
    confined starts
  refine ⟨?_, ?_⟩
  · intro s t
    constructor
    · intro reaches
      obtain ⟨outcome, executes, stops⟩ := follows s (finished.program.size, t) reaches
        fun _ below => absurd below (Nat.lt_irrefl _)
      cases outcome with
      | completed t' =>
          rcases stops with same | further
          · exact (Prod.mk.inj same).2 ▸ executes
          · exact absurd further (Nat.lt_irrefl _)
      | returned t' => exact absurd stops.2 (Nat.lt_irrefl _)
    · intro executes
      obtain ⟨steps, runs⟩ := Machine.executes_ends distinct body entered finished s _ executes ran placed
      exact Machine.runs_reaches _ _ steps _ _ runs
  · intro s t
    constructor
    · rintro ⟨line, last, above, below, found, returns, reaches⟩
      obtain ⟨outcome, executes, stops⟩ := follows s (line, t) reaches fun _ _ => ⟨last, found, returns⟩
      cases outcome with
      | completed t' =>
          rcases stops with same | further
          · have equal := (Prod.mk.inj same).1
            lia
          · exact absurd (Nat.lt_trans below further) (Nat.lt_irrefl _)
      | returned t' =>
          obtain rfl : t = t' := stops.1
          exact executes
    · intro executes
      obtain ⟨steps, line, last, runs, above, below, found, returns⟩ :=
        Machine.executes_ends distinct body entered finished s _ executes ran placed
      exact ⟨line, last, above, below, found, returns, Machine.runs_reaches _ _ steps _ _ runs⟩

end Body

theorem generated_program (bodies : Bodies) (table after : SymbolTable) (options : Options)
    (result : Intermediate) (generated : generate bodies table options = (.ok result, after)) :
    ∃ state, functions bodies.body table.functions (Lowering.start table .empty) = .ok () state ∧
      result.program = state.program := by
  obtain ⟨state, lowered, _, unit⟩ := generate_whole bodies table after options result generated
  exact ⟨state, lowered, unit.program⟩

theorem generate_preserves_control (bodies : Bodies) (table after : SymbolTable) (options : Options)
    (result : Intermediate) (generated : generate bodies table options = (.ok result, after))
    (earlier later : List SymbolId) (id : SymbolId) (listed : table.functions = earlier ++ id :: later) :
    ∃ entered finished, BodyLowered bodies table earlier id entered finished ∧
      finished.program.statements <+: result.program.statements ∧
      ∀ (σ : Type u) (meaning : Interpretation σ),
        Agrees result.program meaning (bodies.body id) entered finished := by
  obtain ⟨state, lowered, same⟩ := generated_program bodies table after options result generated
  obtain ⟨total, fragment, _⟩ := functions_fragment bodies.body table.functions _ state rfl lowered
  have distinct : (marks state.program.statements).Nodup := by
    rw [fragment.emitted.program]
    exact fragment.confined.distinct
  rw [listed, functions_append] at lowered
  obtain ⟨before, front, rest⟩ := lowered
  obtain ⟨_, middle, one, others⟩ := (bind_ok _ _ before state ()).mp rest
  obtain ⟨symbol, finished, found, body, rfl⟩ := function_stages id (bodies.body id) before middle one
  obtain ⟨code, behind, starts, _⟩ := functions_fragment bodies.body later _ state rfl others
  refine ⟨_, finished, ⟨before, symbol, front, found, rfl, body⟩, ?_, ?_⟩
  · rw [same, behind.emitted.program]
    exact List.prefix_append _ code
  · intro σ meaning
    rw [same]
    exact body_agrees state.program meaning distinct (bodies.body id) _ finished body code
      behind.emitted.program _ _ behind.confined starts

def counterTable : SymbolTable :=
  ⟨[⟨"main", .int, .function, none⟩, ⟨"x", .int, .variable, some 1⟩, ⟨"idle", .void, .function, none⟩],
    [⟨1, [], [2]⟩, ⟨3, [], []⟩]⟩

def counterBodies : Bodies :=
  let x : Node := .identifier 2 .int
  let number (value : Int32) : Node := .number (.int value)
  let increment : Node := .binary .assignment .void x (.binary (.arithmetic .add) .int x (number 1))
  let choice : Node := .binary .conditional .void (.binary (.relational .eq) .bool x (number 3))
    (.binary .branches .void (.unary .ret .void x) increment)
  let count : Node := .binary .loop .void (.binary (.relational .lt) .bool x (number 10)) choice
  (Bodies.empty.insert 1 (.list .statementList [increment, count])).2

theorem counter_preserves_control : ∃ result after,
    generate counterBodies counterTable {} = (.ok result, after) ∧ counterTable.functions = [] ++ 1 :: [3] ∧
    ∃ entered finished, BodyLowered counterBodies counterTable [] 1 entered finished ∧
      finished.program.statements <+: result.program.statements ∧
      ∀ (σ : Type) (meaning : Interpretation σ),
        Agrees result.program meaning (counterBodies.body 1) entered finished := by
  obtain ⟨result, after, generated, _⟩ :=
    generate_yields counterBodies counterTable {} (fun _ => ()) () (by decide +kernel)
  exact ⟨result, after, generated, rfl,
    generate_preserves_control counterBodies counterTable after {} result generated [] [3] 1 rfl⟩

end Lower

end ThreeAddress
