import Mathlib.Logic.Equiv.Defs
import ThreeAddress.Proofs.Lowering.Relocation
import ThreeAddress.Proofs.Lowering.Scoping

set_option autoImplicit false

namespace ThreeAddress

theorem Operand.rename_congr (operand : Option Operand) (rename other : SymbolId → SymbolId)
    (same : ∀ ref, operand = some (.symbol ref) → rename ref.id = other ref.id) :
    operand.map (Operand.rename rename) = operand.map (Operand.rename other) := by
  cases operand with
  | none => rfl
  | some operand =>
      cases operand with
      | immediate value => rfl
      | symbol ref => simp only [Option.map_some, Operand.rename, same ref rfl]

theorem Statement.rename_congr (statement : Statement) (rename other : SymbolId → SymbolId)
    (same : ∀ ref, statement.Mentions ref → rename ref.id = other ref.id) :
    statement.rename rename = statement.rename other := by
  simp only [Statement.rename, Statement.mk.injEq, true_and]
  refine ⟨Operand.rename_congr _ _ _ ?_, Operand.rename_congr _ _ _ ?_, Operand.rename_congr _ _ _ ?_⟩
  · intro ref first
    exact same ref (Or.inl (by simp [Statement.operands, first]))
  · intro ref second
    exact same ref (Or.inl (by simp [Statement.operands, second]))
  · intro ref result
    exact same ref (Or.inr result)

theorem Operand.rename_id : Operand.rename id = id := by
  funext operand
  cases operand <;> rfl

theorem Statement.rename_id : Statement.rename id = id := by
  funext statement
  simp [Statement.rename, Operand.rename_id]

theorem Operand.rename_comp (rename other : SymbolId → SymbolId) :
    Operand.rename other ∘ Operand.rename rename = Operand.rename (other ∘ rename) := by
  funext operand
  cases operand <;> rfl

theorem Statement.rename_comp (statement : Statement) (rename other : SymbolId → SymbolId) :
    (statement.rename rename).rename other = statement.rename (other ∘ rename) := by
  simp [Statement.rename, Option.map_map, Operand.rename_comp]

theorem Operand.linked_left {link : SymbolId → SymbolId → Prop} (operand other : Option Operand)
    (linked : Option.Rel (Operand.Linked link) operand other) (ref : SymbolRef)
    (named : operand = some (.symbol ref)) : ∃ id, link ref.id id := by
  subst named
  cases linked with
  | some linked =>
      cases linked with
      | symbol _ copy linked => exact ⟨copy.id, linked.1⟩

theorem Statement.linked_mentions {link : SymbolId → SymbolId → Prop} (statement other : Statement)
    (linked : statement.Linked link other) (ref : SymbolRef) (mentions : statement.Mentions ref) :
    ∃ id, link ref.id id := by
  rcases mentions with operand | result
  · rcases List.mem_append.mp operand with first | second
    · exact Operand.linked_left _ _ linked.first ref (Option.mem_toList.mp first)
    · exact Operand.linked_left _ _ linked.second ref (Option.mem_toList.mp second)
  · exact Operand.linked_left _ _ linked.result ref result

namespace Lower

def Spans (base : SymbolTable) (low high : Nat) (code : List Statement) : Prop :=
  ∀ statement ∈ code, ∀ ref, statement.Mentions ref → ref.id ≤ base.size ∨ low < ref.id ∧ ref.id ≤ high

theorem known_le_size (base : SymbolTable) (id : SymbolId) (known : (base.get? id).isSome = true) :
    id ≤ base.size := by
  obtain ⟨symbol, found⟩ := Option.isSome_iff_exists.mp known
  exact base.get_le_size id symbol found

structure Appends (base : SymbolTable) (state after : Lowering) (code : List Statement) : Prop where
  program : after.program.statements = state.program.statements ++ code
  spans : Spans base state.table.size after.table.size code
  grown : state.table.size ≤ after.table.size
  gains : base.Gains after.table

abbrev Shape := ValueType × SymbolKind × Option SymbolId

structure SameGrowth (first second after other : Lowering) (shapes : List Shape) : Prop where
  here : after.table.symbols.map Symbol.shape = first.table.symbols.map Symbol.shape ++ shapes
  there : other.table.symbols.map Symbol.shape = second.table.symbols.map Symbol.shape ++ shapes

theorem relocated_growth (first second after other : Lowering) (relocated : Relocated first second after other) :
    ∃ shapes, SameGrowth first second after other shapes := by
  obtain ⟨added, copies, symbols, others, same⟩ := relocated.symbols
  exact ⟨added.map Symbol.shape, by simp [symbols], by simp [others, same]⟩

theorem growth_sizes (first second after other : Lowering) (shapes : List Shape)
    (growth : SameGrowth first second after other shapes) :
    after.table.size = first.table.size + shapes.length ∧ other.table.size = second.table.size + shapes.length := by
  constructor
  · simpa [SymbolTable.size] using congrArg List.length growth.here
  · simpa [SymbolTable.size] using congrArg List.length growth.there

/-- The same function lowered in two states: its code is the same up to a displacement, and so are
the symbols allocated for it. -/
structure Transferred (base : SymbolTable) (first second after other : Lowering) (code : List Statement)
    (shapes : List Shape) : Prop where
  appends : Appends base first after code
  gains : base.Gains other.table
  program : other.program.statements =
    second.program.statements ++ code.map (Statement.rename (shift first.table.size second.table.size))
  growth : SameGrowth first second after other shapes

section Functions

variable {base : SymbolTable} (listed : base.Listed)

include listed

theorem function_appends (id : SymbolId) (root : Node) (known : Known base id root) (state after : Lowering)
    (gains : base.Gains state.table) (ran : function id root state = .ok () after) :
    ∃ code, Appends base state after code := by
  have outcome := function_moved base listed id root known state state gains gains
  rw [ran] at outcome
  cases outcome with
  | ok _ _ _ _ _ moved =>
      obtain ⟨code, copy, program, _, linked⟩ := moved.code
      obtain ⟨count, size, _⟩ := moved_sizes after after moved
      refine ⟨code, program, ?_, by lia, moved.gains⟩
      obtain ⟨symbol, finished, looked, lowered, rfl⟩ := function_stages id root state after ran
      obtain ⟨inner, extended, owned⟩ := statement_mentions root _ finished lowered
      have whole : code = entry id symbol :: inner := by
        have longer := extended.program
        simp only [begun, List.append_assoc, List.singleton_append] at longer
        exact List.append_cancel_left (program.symm.trans longer)
      have displaced := ((List.forall₂_and_left _ _).mp
        (linked.imp fun statement other same => ⟨statement.linked_mentions other same, same⟩)).1
      intro statement member ref mentions
      obtain ⟨_, ⟨_, present⟩ | ⟨offset, fresh, _⟩⟩ := displaced statement member ref mentions
      · exact Or.inl (known_le_size base ref.id present)
      · rcases List.mem_cons.mp (whole ▸ member) with rfl | inside
        · obtain rfl : ref = ⟨id, symbol.ty⟩ := by
            simpa [Statement.Mentions, Statement.operands, entry] using mentions
          exact Or.inl (known_le_size base id known.1)
        · rcases owned statement inside ref mentions with tree | ⟨kind, other, found, _⟩
          · have named : ref.id ∈ root.symbols := root.references_symbols ▸ List.mem_map_of_mem tree
            exact Or.inl (known_le_size base ref.id (known.2 ref.id named))
          · exact Or.inr ⟨by lia, finished.table.get_le_size ref.id other found⟩

theorem function_transferred (id : SymbolId) (root : Node) (known : Known base id root)
    (first second after : Lowering) (gains : base.Gains first.table) (others : base.Gains second.table)
    (ran : function id root first = .ok () after) :
    ∃ other code shapes, function id root second = .ok () other ∧
      Transferred base first second after other code shapes := by
  obtain ⟨code, appends⟩ := function_appends listed id root known first after gains ran
  have outcome := function_moved base listed id root known first second gains others
  rw [ran] at outcome
  revert outcome
  generalize function id root second = result
  intro outcome
  cases outcome with
  | ok _ u _ other _ moved =>
      have relocated := moved_relocated base first second after other (gains_size base _ gains) moved
      obtain ⟨whole, program, renamed⟩ := relocated.code
      obtain rfl : code = whole := List.append_cancel_left (appends.program.symm.trans program)
      obtain ⟨shapes, growth⟩ := relocated_growth _ _ _ _ relocated
      exact ⟨other, code, shapes, rfl, appends, moved.others, renamed, growth⟩

end Functions

def pieces (body : SymbolId → Node) : List SymbolId → Lowering → List (SymbolId × List Statement)
  | [], _ => []
  | id :: rest, state =>
    let after := (function id (body id)).final state
    (id, after.program.statements.drop state.program.size) :: pieces body rest after

theorem pieces_cons (body : SymbolId → Node) (id : SymbolId) (rest : List SymbolId) (state after : Lowering)
    (code : List Statement) (ran : function id (body id) state = .ok () after)
    (program : after.program.statements = state.program.statements ++ code) :
    pieces body (id :: rest) state = (id, code) :: pieces body rest after := by
  have piece : after.program.statements.drop state.program.size = code := by
    rw [program, Program.size, List.drop_left]
  simp only [pieces, final_ok _ state after () ran, piece]

def renamePiece (rename : SymbolId → SymbolId) (piece : SymbolId × List Statement) : SymbolId × List Statement :=
  (piece.1, piece.2.map (Statement.rename rename))

theorem rename_piece_comp (rename other : SymbolId → SymbolId) :
    renamePiece other ∘ renamePiece rename = renamePiece (other ∘ rename) := by
  funext piece
  simp [renamePiece, Statement.rename_comp]

/-- Exchanges two blocks of ids behind a bound. -/
def exchange (low left right : Nat) (id : SymbolId) : SymbolId :=
  if id ≤ low then id
  else if id ≤ low + left then id + right
  else if id ≤ low + left + right then id - left
  else id

theorem exchange_back (low left right : Nat) (id : SymbolId) :
    exchange low right left (exchange low left right id) = id := by
  unfold exchange
  split_ifs <;> lia

theorem exchange_left (low left right : Nat) (id : SymbolId) (inside : id ≤ low + left) :
    shift low (low + right) id = exchange low left right id := by
  unfold shift exchange
  split_ifs <;> lia

theorem exchange_right (low left right : Nat) (id : SymbolId) (inside : id ≤ low ∨ low + left < id)
    (bound : id ≤ low + left + right) : shift (low + left) low id = exchange low left right id := by
  unfold shift exchange
  split_ifs <;> lia

theorem exchange_outside (low left right : Nat) (id : SymbolId) (outside : id ≤ low ∨ low + left + right < id) :
    exchange low left right id = id := by
  unfold exchange
  split_ifs <;> lia

def exchanging (low left right : Nat) : Equiv.Perm SymbolId where
  toFun := exchange low left right
  invFun := exchange low right left
  left_inv := exchange_back low left right
  right_inv := exchange_back low right left

/-- Another order gave the same symbols and the same pieces, up to a renaming of what is fresh. -/
structure Rearranged (body : SymbolId → Node) (order second : List SymbolId) (state after other : Lowering)
    (rename : Equiv.Perm SymbolId) : Prop where
  fixed : ∀ id ≤ state.table.size, rename id = id
  shapes : ∀ id, (other.table.get? (rename id)).map Symbol.shape = (after.table.get? id).map Symbol.shape
  moved : (pieces body second state).Perm ((pieces body order state).map (renamePiece rename))

theorem shift_same (bound : Nat) : shift bound bound = id := by
  funext id
  unfold shift
  split_ifs with above
  · exact Nat.sub_add_cancel (Nat.le_of_lt above)
  · rfl

theorem rename_spans (base : SymbolTable) (low high : Nat) (code : List Statement) (spans : Spans base low high code)
    (rename other : SymbolId → SymbolId)
    (same : ∀ id, id ≤ base.size ∨ low < id ∧ id ≤ high → rename id = other id) :
    code.map (Statement.rename rename) = code.map (Statement.rename other) := by
  apply List.map_congr_left
  intro statement member
  apply statement.rename_congr
  intro ref mentions
  exact same ref.id (spans statement member ref mentions)

theorem rename_fixed (base : SymbolTable) (low high : Nat) (code : List Statement) (spans : Spans base low high code)
    (rename : SymbolId → SymbolId) (fixed : ∀ id, id ≤ base.size ∨ low < id ∧ id ≤ high → rename id = id) :
    code.map (Statement.rename rename) = code := by
  rw [rename_spans base low high code spans rename id fixed, Statement.rename_id, List.map_id]

theorem exchange_get {α : Type} (low left right rest : List α) (position : Nat) :
    (low ++ right ++ left ++ rest)[exchange low.length left.length right.length (position + 1) - 1]? =
      (low ++ left ++ right ++ rest)[position]? := by
  unfold exchange
  split_ifs
  all_goals
    simp only [List.getElem?_append, List.length_append]
    grind

theorem shape_get (table : SymbolTable) (position : Nat) :
    (table.get? (position + 1)).map Symbol.shape = (table.symbols.map Symbol.shape)[position]? := by
  simp [SymbolTable.get?]

theorem exchanged_shapes (table after other : SymbolTable)
    (left right rest : List Shape)
    (here : after.symbols.map Symbol.shape = table.symbols.map Symbol.shape ++ left ++ right ++ rest)
    (there : other.symbols.map Symbol.shape = table.symbols.map Symbol.shape ++ right ++ left ++ rest)
    (id : SymbolId) :
    (other.get? (exchange table.size left.length right.length id)).map Symbol.shape =
      (after.get? id).map Symbol.shape := by
  cases id with
  | zero => simp [exchange, SymbolTable.get?]
  | succ position =>
      have positive : 0 < exchange table.size left.length right.length (position + 1) := by
        unfold exchange
        split_ifs <;> lia
      have same := exchange_get (table.symbols.map Symbol.shape) left right rest position
      rw [← here, ← there, List.length_map] at same
      rw [shape_get after position, ← same, ← Nat.sub_add_cancel positive, shape_get]
      rfl

section Orders

variable {base : SymbolTable} {body : SymbolId → Node} (listed : base.Listed)

include listed

theorem functions_same (ids : List SymbolId) (known : ∀ id ∈ ids, Known base id (body id))
    (first second after : Lowering) (gains : base.Gains first.table) (others : base.Gains second.table)
    (size : second.table.size = first.table.size) (ran : functions body ids first = .ok () after) :
    ∃ other, functions body ids second = .ok () other ∧ pieces body ids second = pieces body ids first ∧
      ∃ shapes, SameGrowth first second after other shapes := by
  induction ids generalizing first second with
  | nil =>
      obtain ⟨_, rfl⟩ := (pure_ok () () first after).mp ran
      exact ⟨second, rfl, rfl, [], by simp, by simp⟩
  | cons id rest ih =>
      obtain ⟨_, middle, one, later⟩ := (bind_ok _ _ first after ()).mp ran
      obtain ⟨copy, code, shapes, two, moved⟩ := function_transferred listed id (body id)
        (known id List.mem_cons_self) first second middle gains others one
      obtain ⟨sizeMiddle, sizeCopy⟩ := growth_sizes _ _ _ _ shapes moved.growth
      obtain ⟨other, finishes, same, more, growthRest⟩ := ih
        (fun other member => known other (List.mem_cons_of_mem _ member)) middle copy moved.appends.gains moved.gains
        (by lia) later
      refine ⟨other, (bind_ok _ _ second other ()).mpr ⟨(), copy, two, finishes⟩, ?_, shapes ++ more, ?_, ?_⟩
      · have renamed := moved.program
        rw [size, shift_same, Statement.rename_id, List.map_id] at renamed
        rw [pieces_cons body id rest first middle code one moved.appends.program,
          pieces_cons body id rest second copy code two renamed, same]
      · rw [growthRest.here, moved.growth.here, List.append_assoc]
      · rw [growthRest.there, moved.growth.there, List.append_assoc]

theorem functions_spans (ids : List SymbolId) (known : ∀ id ∈ ids, Known base id (body id)) (state after : Lowering)
    (gains : base.Gains state.table) (ran : functions body ids state = .ok () after) :
    state.table.size ≤ after.table.size ∧
      after.program.statements = state.program.statements ++ (pieces body ids state).flatMap Prod.snd ∧
      ∀ piece ∈ pieces body ids state, Spans base state.table.size after.table.size piece.2 := by
  induction ids generalizing state with
  | nil =>
      obtain ⟨_, rfl⟩ := (pure_ok () () state after).mp ran
      exact ⟨Nat.le_refl _, by simp [pieces], by simp [pieces]⟩
  | cons id rest ih =>
      obtain ⟨_, middle, one, later⟩ := (bind_ok _ _ state after ()).mp ran
      obtain ⟨code, appends⟩ := function_appends listed id (body id) (known id List.mem_cons_self) state middle
        gains one
      obtain ⟨grown, program, spans⟩ := ih (fun other member => known other (List.mem_cons_of_mem _ member)) middle
        appends.gains later
      have bound := appends.grown
      rw [pieces_cons body id rest state middle code one appends.program]
      refine ⟨by lia, ?_, ?_⟩
      · rw [program, appends.program, List.flatMap_cons, List.append_assoc]
      · intro piece member statement inside ref mentions
        rcases List.mem_cons.mp member with rfl | later
        · have range := appends.spans statement inside ref mentions
          lia
        · have range := spans piece later statement inside ref mentions
          lia

theorem pieces_fixed (ids : List SymbolId) (known : ∀ id ∈ ids, Known base id (body id)) (state after : Lowering)
    (gains : base.Gains state.table) (ran : functions body ids state = .ok () after) (rename : SymbolId → SymbolId)
    (fixed : ∀ id, id ≤ base.size ∨ state.table.size < id ∧ id ≤ after.table.size → rename id = id) :
    (pieces body ids state).map (renamePiece rename) = pieces body ids state := by
  obtain ⟨_, _, spans⟩ := functions_spans listed ids known state after gains ran
  apply (List.map_congr_left _).trans (List.map_id _)
  intro piece member
  rw [renamePiece, id_eq, rename_fixed base _ _ piece.2 (spans piece member) rename fixed]

theorem rearranged_cons (id : SymbolId) (order second : List SymbolId) (known : Known base id (body id))
    (state middle after other : Lowering) (gains : base.Gains state.table) (rename : Equiv.Perm SymbolId)
    (ran : function id (body id) state = .ok () middle)
    (inner : Rearranged body order second middle after other rename) :
    Rearranged body (id :: order) (id :: second) state after other rename := by
  obtain ⟨code, appends⟩ := function_appends listed id (body id) known state middle gains ran
  have bound := gains_size base state.table gains
  have grown := appends.grown
  refine ⟨fun other below => inner.fixed other (by lia), inner.shapes, ?_⟩
  have same : code.map (Statement.rename rename) = code :=
    rename_fixed base _ _ code appends.spans rename fun other range => inner.fixed other (by lia)
  rw [pieces_cons body id _ state middle code ran appends.program,
    pieces_cons body id _ state middle code ran appends.program, List.map_cons, renamePiece, same]
  exact inner.moved.cons _

theorem rearranged_swap (left right : SymbolId) (rest : List SymbolId) (knownLeft : Known base left (body left))
    (knownRight : Known base right (body right)) (known : ∀ id ∈ rest, Known base id (body id))
    (state after : Lowering) (gains : base.Gains state.table)
    (ran : functions body (left :: right :: rest) state = .ok () after) :
    ∃ other rename, functions body (right :: left :: rest) state = .ok () other ∧
      Rearranged body (left :: right :: rest) (right :: left :: rest) state after other rename := by
  -- Two neighbours that change places exchange what is fresh in them.
  obtain ⟨_, one, first, later⟩ := (bind_ok _ _ state after ()).mp ran
  obtain ⟨_, two, second, others⟩ := (bind_ok _ _ one after ()).mp later
  obtain ⟨_, appendsLeft⟩ := function_appends listed left (body left) knownLeft state one gains first
  obtain ⟨early, codeRight, shapesRight, earlier, movedRight⟩ := function_transferred listed right (body right)
    knownRight one state two appendsLeft.gains gains second
  obtain ⟨late, codeLeft, shapesLeft, thereafter, movedLeft⟩ := function_transferred listed left (body left)
    knownLeft state early one gains movedRight.gains first
  obtain ⟨sizeTwo, sizeEarly⟩ := growth_sizes _ _ _ _ _ movedRight.growth
  obtain ⟨sizeOne, sizeLate⟩ := growth_sizes _ _ _ _ _ movedLeft.growth
  obtain ⟨other, finishes, same, shapesRest, growthRest⟩ := functions_same listed rest known two late after
    movedRight.appends.gains movedLeft.gains (by lia) others
  have bound := gains_size base state.table gains
  refine ⟨other, exchanging state.table.size shapesLeft.length shapesRight.length, ?_, ?_, ?_, ?_⟩
  · exact (bind_ok _ _ state other ()).mpr ⟨(), early, earlier, (bind_ok _ _ early other ()).mpr
      ⟨(), late, thereafter, finishes⟩⟩
  · intro id below
    exact if_pos below
  · apply exchanged_shapes state.table after.table other.table shapesLeft shapesRight shapesRest
    · rw [growthRest.here, movedRight.growth.here, movedLeft.growth.here]
    · rw [growthRest.there, movedLeft.growth.there, movedRight.growth.there]
  · have movesLeft := rename_spans base _ _ codeLeft movedLeft.appends.spans _ _ fun id range =>
      exchange_left state.table.size shapesLeft.length shapesRight.length id (by lia)
    have movesRight := rename_spans base _ _ codeRight movedRight.appends.spans _ _ fun id range =>
      exchange_right state.table.size shapesLeft.length shapesRight.length id (by lia) (by lia)
    have staysRest := pieces_fixed listed rest known two after movedRight.appends.gains others
      (exchange state.table.size shapesLeft.length shapesRight.length) fun id range =>
      exchange_outside _ _ _ id (by lia)
    have renamedRight := movedRight.program
    have renamedLeft := movedLeft.program
    rw [sizeOne, movesRight] at renamedRight
    rw [sizeEarly, movesLeft] at renamedLeft
    rw [pieces_cons body left _ state one codeLeft first movedLeft.appends.program,
      pieces_cons body right _ one two codeRight second movedRight.appends.program,
      pieces_cons body right _ state early _ earlier renamedRight,
      pieces_cons body left _ early late _ thereafter renamedLeft, same]
    simp only [List.map_cons, exchanging, Equiv.coe_fn_mk, staysRest]
    exact .swap _ _ _

theorem functions_rearranged (order second : List SymbolId) (same : order.Perm second)
    (known : ∀ id ∈ order, Known base id (body id)) (state after : Lowering) (gains : base.Gains state.table)
    (ran : functions body order state = .ok () after) :
    ∃ other rename, functions body second state = .ok () other ∧
      Rearranged body order second state after other rename := by
  induction same generalizing state after with
  | nil =>
      obtain ⟨_, rfl⟩ := (pure_ok () () state after).mp ran
      exact ⟨state, Equiv.refl _, rfl, fun _ _ => rfl, fun _ => rfl, .refl _⟩
  | @cons id order second _ ih =>
      obtain ⟨_, middle, one, later⟩ := (bind_ok _ _ state after ()).mp ran
      have knownFirst := known id List.mem_cons_self
      obtain ⟨code, appends⟩ := function_appends listed id (body id) knownFirst state middle gains one
      obtain ⟨other, rename, finishes, inner⟩ := ih (fun id member => known id (List.mem_cons_of_mem _ member)) middle
        after appends.gains later
      exact ⟨other, rename, (bind_ok _ _ state other ()).mpr ⟨(), middle, one, finishes⟩,
        rearranged_cons listed id order second knownFirst state middle after other gains rename one inner⟩
  | swap right left rest =>
      exact rearranged_swap listed left right rest (known left (by simp)) (known right (by simp))
        (fun id member => known id (by simp [member])) state after gains ran
  | @trans order middle second early _ ihEarly ihLate =>
      obtain ⟨between, rename, runs, first⟩ := ihEarly known state after gains ran
      obtain ⟨other, further, finishes, last⟩ := ihLate (fun id member => known id (early.mem_iff.mpr member)) state
        between gains runs
      refine ⟨other, rename.trans further, finishes, ?_, ?_, ?_⟩
      · intro id below
        rw [Equiv.trans_apply, first.fixed id below, last.fixed id below]
      · intro id
        rw [Equiv.trans_apply, last.shapes, first.shapes]
      · have moved := last.moved.trans (first.moved.map (renamePiece further))
        rw [List.map_map, rename_piece_comp] at moved
        exact moved

end Orders

theorem alike_mono {α β : Type} {twin other : Lowering → Lowering → Prop} {image : α → β → Prop}
    (weaker : ∀ first second, twin first second → other first second)
    (left : EStateM.Result LoweringError Lowering α) (right : EStateM.Result LoweringError Lowering β)
    (alike : Alike twin image left right) : Alike other image left right := by
  cases alike with
  | ok a b after last matched twins => exact .ok a b after last matched (weaker after last twins)
  | error cause after last twins => exact .error cause after last (weaker after last twins)

theorem lowering_independent_of_history (base : SymbolTable) (built : base.Built) :
    (∀ id root, Known base id root → ∀ first second : Lowering, base.Gains first.table → base.Gains second.table →
      Alike (Relocated first second) (fun _ _ => True) (function id root first) (function id root second)) ∧
    ∀ body order second, order.Perm second → (∀ id ∈ order, Known base id (body id)) →
      ∀ state after : Lowering, base.Gains state.table → functions body order state = .ok () after →
      after.program.statements = state.program.statements ++ (pieces body order state).flatMap Prod.snd ∧
      ∃ other rename, functions body second state = .ok () other ∧
        other.program.statements = state.program.statements ++ (pieces body second state).flatMap Prod.snd ∧
        Rearranged body order second state after other rename := by
  have listed := base.built_listed built
  constructor
  · intro id root known first second gains others
    exact alike_mono (moved_relocated base first second · · (gains_size base first.table gains)) _ _
      (function_moved base listed id root known first second gains others)
  · intro body order second same known state after gains ran
    obtain ⟨other, rename, finishes, rearranged⟩ := functions_rearranged listed order second same known state after
      gains ran
    have knownSecond : ∀ id ∈ second, Known base id (body id) := fun id member => known id (same.mem_iff.mpr member)
    exact ⟨(functions_spans listed order known state after gains ran).2.1, other, rename, finishes,
      (functions_spans listed second knownSecond state other gains finishes).2.1, rearranged⟩

def negatedBody (id : SymbolId) : Node :=
  if id = 1 then .unary .ret .int (.unary (.unary .minus) .int (.identifier 2 .int)) else nestedBody

def crowdedTable : SymbolTable :=
  ⟨nestedTable.symbols ++ [⟨"&6", .int8, .temporary, some 1⟩], [⟨1, [2], [5]⟩, ⟨3, [], [4]⟩]⟩

theorem negated_independent : nestedTable.Built ∧ (∀ id ∈ [1, 3], Known nestedTable id (negatedBody id)) ∧
    nestedTable.Gains crowdedTable ∧
    Alike (Relocated (.start nestedTable .empty) ⟨crowdedTable, .empty, 7, 2, none⟩) (fun _ _ => True)
      (function 3 nestedBody (.start nestedTable .empty)) (function 3 nestedBody ⟨crowdedTable, .empty, 7, 2, none⟩) ∧
    ∃ after other rename, functions negatedBody [1, 3] (.start nestedTable .empty) = .ok () after ∧
      functions negatedBody [3, 1] (.start nestedTable .empty) = .ok () other ∧
      Rearranged negatedBody [1, 3] [3, 1] (.start nestedTable .empty) after other rename := by
  have built : nestedTable.Built :=
    .addVariable _ nestedTable 3 4 "x" .int (.addFunction _ "main" .void
      (.addParameter _ _ 1 2 "n" .int (.addFunction _ "f" .int .empty) rfl)) rfl
  have known : ∀ id ∈ [1, 3], Known nestedTable id (negatedBody id) := by
    unfold Known
    decide
  have gains : nestedTable.Gains crowdedTable :=
    Relation.ReflTransGen.single ⟨.temporary, 1, 5, "&6", .int8, rfl⟩
  have start : nestedTable.Gains nestedTable := Relation.ReflTransGen.refl
  obtain ⟨relocates, rearranges⟩ := lowering_independent_of_history nestedTable built
  have relocated := relocates 3 nestedBody (known 3 (by decide)) (.start nestedTable .empty)
    ⟨crowdedTable, .empty, 7, 2, none⟩ start gains
  have succeeds : EStateM.run' (functions negatedBody [1, 3]) (.start nestedTable .empty) = some () := by
    decide +kernel
  refine ⟨built, known, gains, relocated, ?_⟩
  cases ran : functions negatedBody [1, 3] (.start nestedTable .empty) with
  | error cause after =>
      delta EStateM.run' EStateM.run at succeeds
      rw [ran] at succeeds
      cases succeeds
  | ok u after =>
      obtain ⟨_, other, rename, finishes, _, rearranged⟩ := rearranges negatedBody [1, 3] [3, 1] (.swap 3 1 []) known
        (.start nestedTable .empty) after start ran
      exact ⟨after, other, rename, rfl, finishes, rearranged⟩

end Lower

end ThreeAddress
