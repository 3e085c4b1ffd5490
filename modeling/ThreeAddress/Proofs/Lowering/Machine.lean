import ThreeAddress.Proofs.Flow.Lines
import ThreeAddress.Proofs.Lowering.Fragments

set_option autoImplicit false

namespace ThreeAddress

universe u

variable {σ : Type u}

/-- What plain statements do to a state, and in which states conditional jumps are taken. -/
structure Interpretation (σ : Type u) where
  apply : Statement → σ → σ
  taken : Statement → σ → Bool

namespace Interpretation

def run (meaning : Interpretation σ) (code : List Statement) (s : σ) : σ :=
  code.foldl (fun s statement => meaning.apply statement s) s

def jumps (meaning : Interpretation σ) (statement : Statement) (s : σ) : Bool :=
  statement.opcode = .goto || (statement.opcode.isConditionalJump && meaning.taken statement s)

def effect (meaning : Interpretation σ) (statement : Statement) (s : σ) : σ :=
  if statement.opcode.isPlain then meaning.apply statement s else s

end Interpretation

namespace Machine

/-- From a line and a state to the next ones. There is no step from a return, and a jump goes to the
last line of its label. -/
def Moves (program : Program) (meaning : Interpretation σ) (here next : Line × σ) : Prop :=
  ∃ statement, program.get? here.1 = some statement ∧ statement.opcode ≠ .ret ∧
    if meaning.jumps statement here.2 then
      next.2 = here.2 ∧ ∃ label, statement.jumpTarget? = some label ∧ program.LastNaming .label label next.1
    else next = (here.1 + 1, meaning.effect statement here.2)

inductive Runs (program : Program) (meaning : Interpretation σ) (low high : Line) :
    Nat → Line × σ → Line × σ → Prop where
  | refl (here : Line × σ) : Runs program meaning low high 0 here here
  | step (steps : Nat) (here next last : Line × σ) (inside : low ≤ here.1 ∧ here.1 < high)
      (moves : Moves program meaning here next) (rest : Runs program meaning low high steps next last) :
      Runs program meaning low high (steps + 1) here last

def Reaches (program : Program) (meaning : Interpretation σ) : Line × σ → Line × σ → Prop :=
  Relation.ReflTransGen (Moves program meaning)

section Steps

variable {program : Program} {meaning : Interpretation σ}

theorem moves_unique (here a b : Line × σ) (left : Moves program meaning here a)
    (right : Moves program meaning here b) : a = b := by
  obtain ⟨statement, found, _, goes⟩ := left
  obtain ⟨other, foundOther, _, goesOther⟩ := right
  obtain rfl : statement = other := Option.some.inj (found.symm.trans foundOther)
  by_cases jumps : meaning.jumps statement here.2 = true
  · rw [if_pos jumps] at goes goesOther
    obtain ⟨same, label, target, last⟩ := goes
    obtain ⟨sameOther, labelOther, targetOther, lastOther⟩ := goesOther
    obtain rfl : label = labelOther := Option.some.inj (target.symm.trans targetOther)
    exact Prod.ext (program.last_naming_unique .label label a.1 b.1 last lastOther)
      (same.trans sameOther.symm)
  · rw [if_neg jumps] at goes goesOther
    exact goes.trans goesOther.symm

theorem runs_trans (low high : Line) (first second : Nat) (a b c : Line × σ)
    (early : Runs program meaning low high first a b) (late : Runs program meaning low high second b c) :
    Runs program meaning low high (first + second) a c := by
  induction early with
  | refl here =>
      rw [Nat.zero_add]
      exact late
  | step steps here next last inside moves _ ih =>
      rw [Nat.succ_add]
      exact .step _ here next c inside moves (ih late)

theorem runs_widen (low high less more : Line) (range : less ≤ low ∧ high ≤ more) (steps : Nat)
    (a b : Line × σ) (runs : Runs program meaning low high steps a b) :
    Runs program meaning less more steps a b := by
  induction runs with
  | refl here => exact .refl here
  | step steps here next last inside moves _ ih => exact .step steps here next last (by lia) moves ih

theorem runs_reaches (low high : Line) (steps : Nat) (a b : Line × σ)
    (runs : Runs program meaning low high steps a b) : Reaches program meaning a b := by
  induction runs with
  | refl here => exact .refl
  | step _ here next last _ moves _ ih => exact .head moves ih

theorem reaches_runs (a b : Line × σ) (reaches : Reaches program meaning a b) :
    ∃ steps, Runs program meaning 0 program.size steps a b := by
  induction reaches using Relation.ReflTransGen.head_induction_on with
  | refl => exact ⟨0, .refl b⟩
  | head moves _ ih =>
      obtain ⟨steps, runs⟩ := ih
      have bound := moves
      obtain ⟨statement, found, _⟩ := bound
      exact ⟨steps + 1, .step steps _ _ b ⟨Nat.zero_le _, program.get_lt_size _ statement found⟩ moves runs⟩

def Final (program : Program) (low high : Line) (last : Line × σ) : Prop :=
  low ≤ last.1 → last.1 < high → ∃ statement, program.get? last.1 = some statement ∧ statement.opcode = .ret

theorem runs_pass (low high : Line) (steps more : Nat) (a b c : Line × σ)
    (runs : Runs program meaning low high steps a b) (longer : Runs program meaning 0 program.size more a c)
    (final : Final program low high c) :
    ∃ rest, more = steps + rest ∧ Runs program meaning 0 program.size rest b c := by
  -- The machine is deterministic: a run that goes on to the end of another one passes its end.
  induction runs generalizing more with
  | refl here => exact ⟨more, (Nat.zero_add more).symm, longer⟩
  | step steps here next last inside moves _ ih =>
      cases longer with
      | refl =>
          obtain ⟨statement, found, returns⟩ := final inside.1 inside.2
          obtain ⟨other, foundOther, goesOn, _⟩ := moves
          obtain rfl : statement = other := Option.some.inj (found.symm.trans foundOther)
          exact absurd returns goesOn
      | step count _ following _ _ movesOther longerRest =>
          obtain rfl := moves_unique here next following moves movesOther
          obtain ⟨rest, same, runsRest⟩ := ih count longerRest
          exact ⟨rest, by lia, runsRest⟩

theorem runs_from_return (steps : Nat) (line : Line) (s : σ) (last : Line × σ) (statement : Statement)
    (found : program.get? line = some statement) (returns : statement.opcode = .ret)
    (runs : Runs program meaning 0 program.size steps (line, s) last) : last = (line, s) := by
  cases runs with
  | refl => rfl
  | step _ _ _ _ _ moves _ =>
      obtain ⟨other, foundOther, goesOn, _⟩ := moves
      obtain rfl : statement = other := Option.some.inj (found.symm.trans foundOther)
      exact absurd returns goesOn

variable (meaning)

theorem moves_on (line : Line) (s : σ) (statement : Statement) (found : program.get? line = some statement)
    (goesOn : statement.opcode ≠ .ret) (stays : meaning.jumps statement s = false) :
    Moves program meaning (line, s) (line + 1, meaning.effect statement s) := by
  refine ⟨statement, found, goesOn, ?_⟩
  rw [if_neg (by simp [stays])]

theorem moves_to_label (line target : Line) (s : σ) (statement : Statement) (label : SymbolId)
    (found : program.get? line = some statement) (jumps : meaning.jumps statement s = true)
    (names : statement.jumpTarget? = some label) (last : program.LastNaming .label label target) :
    Moves program meaning (line, s) (target, s) := by
  refine ⟨statement, found, ?_, ?_⟩
  · intro returns
    simp [Interpretation.jumps, returns, Opcode.isConditionalJump] at jumps
  · rw [if_pos jumps]
    exact ⟨rfl, label, names, last⟩

theorem plain_stays (statement : Statement) (plain : statement.opcode.isPlain = true) (s : σ) :
    statement.opcode ≠ .ret ∧ meaning.jumps statement s = false ∧
      meaning.effect statement s = meaning.apply statement s := by
  refine ⟨?_, ?_, by rw [Interpretation.effect, if_pos plain]⟩
  · intro returns
    simp [returns, Opcode.isPlain] at plain
  · unfold Interpretation.jumps
    cases opcode : statement.opcode <;> simp_all [Opcode.isPlain, Opcode.isConditionalJump]

def Stands (program : Program) (line : Line) (code : List Statement) : Prop :=
  ∀ (offset : Nat) (statement : Statement), code[offset]? = some statement →
    program.get? (line + offset) = some statement

theorem stands_append (line : Line) (first second : List Statement) :
    Stands program line (first ++ second) ↔
      Stands program line first ∧ Stands program (line + first.length) second := by
  constructor
  · intro whole
    refine ⟨?_, ?_⟩
    · intro offset statement found
      have bound := (List.getElem?_eq_some_iff.mp found).1
      exact whole offset statement (by rw [List.getElem?_append_left bound]; exact found)
    · intro offset statement found
      have shifted := whole (first.length + offset) statement (by
        rw [List.getElem?_append_right (Nat.le_add_right _ _), Nat.add_sub_cancel_left]
        exact found)
      rwa [← Nat.add_assoc] at shifted
  · intro both offset statement found
    by_cases early : offset < first.length
    · rw [List.getElem?_append_left early] at found
      exact both.1 offset statement found
    · rw [List.getElem?_append_right (Nat.le_of_not_lt early)] at found
      have shifted := both.2 (offset - first.length) statement found
      rwa [show line + first.length + (offset - first.length) = line + offset by lia] at shifted

theorem stands_single (line : Line) (statement : Statement) :
    Stands program line [statement] ↔ program.get? line = some statement := by
  constructor
  · intro stands
    exact stands 0 statement rfl
  · intro found offset other same
    cases offset with
    | zero =>
        obtain rfl : statement = other := by simpa using same
        exact found
    | succ offset => simp at same

theorem stands_of_extends (before after : Lowering) (code : List Statement)
    (emitted : before.Extends after code) (placed : after.program.statements <+: program.statements) :
    Stands program before.program.size code := by
  intro offset statement found
  have bound := (List.getElem?_eq_some_iff.mp found).1
  obtain ⟨rest, whole⟩ := placed
  rw [Program.get?, Program.size, ← whole, emitted.program, List.append_assoc,
    List.getElem?_append_right (Nat.le_add_right _ _), Nat.add_sub_cancel_left,
    List.getElem?_append_left bound]
  exact found

theorem runs_plain (line : Line) (code : List Statement) (stands : Stands program line code)
    (plain : ∀ statement ∈ code, statement.opcode.isPlain = true) (s : σ) :
    Runs program meaning line (line + code.length) code.length (line, s)
      (line + code.length, meaning.run code s) := by
  induction code generalizing line s with
  | nil => exact .refl (line, s)
  | cons statement rest ih =>
      rw [← List.singleton_append, stands_append, stands_single] at stands
      obtain ⟨goesOn, stays, effect⟩ := plain_stays meaning statement
        (plain statement List.mem_cons_self) s
      have moves := moves_on meaning line s statement stands.1 goesOn stays
      rw [effect] at moves
      have tail := ih (line + 1) stands.2 (fun other member => plain other (List.mem_cons_of_mem _ member))
        (meaning.apply statement s)
      rw [List.length_cons, show line + (rest.length + 1) = line + 1 + rest.length by lia]
      exact .step rest.length _ _ _ (by lia) moves (runs_widen _ _ _ _ (by lia) _ _ _ tail)

end Steps

end Machine

end ThreeAddress
