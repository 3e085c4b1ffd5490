import Mathlib.Data.Nat.Find
import Mathlib.Logic.Function.Iterate
import ThreeAddress.Proofs.DataFlow.Sweep

set_option autoImplicit false

namespace ThreeAddress

namespace GenKill

variable {α : Type} [Ord α]

theorem initial_slot (flow : ControlFlow) (count : Nat) (line : Line) (set : FactSet α) :
    (initial flow count : LineFacts α).before[line]? = some (some set) ↔
      line < count ∧ (∃ block < flow.blockCount, (flow.lines block).contains line = true) ∧ set = ∅ := by
  by_cases bound : line < count
  · simp only [initial, List.getElem?_map, List.getElem?_range bound, Option.map_some, bound,
      true_and, Option.some.injEq, List.any_eq_true, List.mem_range]
    by_cases inside : ∃ block < flow.blockCount, (flow.lines block).contains line = true
    · rw [if_pos inside, Option.some.injEq]
      exact ⟨fun empty => ⟨inside, empty.symm⟩, fun both => both.2.symm⟩
    · rw [if_neg inside]
      exact iff_of_false nofun (fun both => inside both.1)
  · simp [initial, bound]

variable [Std.TransOrd α]

theorem initial_empty (flow : ControlFlow) (count : Nat) (line : Line) (x : α) :
    ¬ Slots.Holds (initial flow count : LineFacts α).before line x := by
  intro held
  obtain ⟨set, found, member⟩ := held
  rw [((initial_slot flow count line set).mp found).2.2] at member
  exact Std.ExtTreeSet.not_mem_empty member

theorem initial_consistent (analysis : GenKill α) (flow : ControlFlow) (count : Nat)
    (tiled : flow.Tiled count) : analysis.Consistent flow count (initial flow count) := by
  have covered : Covered flow count (initial flow count : LineFacts α).before := by
    refine ⟨by simp [initial], ?_⟩
    intro line
    simp only [initial_slot]
    constructor
    · intro present
      obtain ⟨_, _, inside, _⟩ := present
      exact inside
    · intro inside
      obtain ⟨block, known, contains⟩ := inside
      have high := tiled.bound block known
      have low : line ≤ (flow.lines block).last := by
        simp only [LineRange.contains, Bool.and_eq_true, decide_eq_true_eq] at contains
        exact contains.2
      exact ⟨∅, Nat.lt_of_le_of_lt low high, ⟨block, known, contains⟩, rfl⟩
  refine ⟨covered, covered, ?_, ?_⟩
  · exact fun line x held => absurd held (initial_empty flow count line x)
  · exact fun line x held => absurd held (initial_empty flow count line x)

structure Settled (analysis : GenKill α) (flow : ControlFlow) (facts : LineFacts α) (block : BlockId) :
    Prop where
  last : facts.after[(flow.lines block).last]? = some (some (analysis.blockEnd flow facts block))
  next : ∀ line, (flow.lines block).first ≤ line → line < (flow.lines block).last →
    facts.after[line]? = facts.before[line + 1]?
  transfer : ∀ line, (flow.lines block).first ≤ line → line ≤ (flow.lines block).last →
    ∃ set, facts.after[line]? = some (some set) ∧
      facts.before[line]? = some (some (analysis.transfer line set))

/-- Predicates that contain whatever the equations of the analysis force. -/
structure Bounds (analysis : GenKill α) (flow : ControlFlow) (before after : Line → α → Prop) : Prop where
  gen : ∀ line x, x ∈ analysis.gen.getD line ∅ → before line x
  pass : ∀ line x, after line x → x ∉ analysis.kill.getD line ∅ → before line x
  next : ∀ block < flow.blockCount, ∀ line x, (flow.lines block).first ≤ line →
    line < (flow.lines block).last → before (line + 1) x → after line x
  last : ∀ block < flow.blockCount, ∀ child ∈ (flow.successors block).toList, ∀ x,
    before (flow.lines child).first x → after (flow.lines block).last x
  exit : ∀ block < flow.blockCount, (flow.successors block).isTerminated = true →
    ∀ x ∈ analysis.exit, after (flow.lines block).last x

structure Within (before after : Line → α → Prop) (facts : LineFacts α) : Prop where
  before : ∀ line x, Slots.Holds facts.before line x → before line x
  after : ∀ line x, Slots.Holds facts.after line x → after line x

theorem initial_within (flow : ControlFlow) (count : Nat) (before after : Line → α → Prop) :
    Within before after (initial flow count) := by
  refine ⟨?_, ?_⟩
  · exact fun line x held => absurd held (initial_empty flow count line x)
  · exact fun line x held => absurd held (initial_empty flow count line x)

theorem support_bounds (analysis : GenKill α) (flow : ControlFlow) :
    analysis.Bounds flow (fun _ x => x ∈ analysis.support) (fun _ x => x ∈ analysis.support) := by
  refine ⟨?_, ?_, ?_, ?_, ?_⟩
  · intro line x member
    rw [support, FactSet.mem_join_all]
    cases found : analysis.gen[line]? with
    | none => simp [List.getD_eq_getElem?_getD, found] at member
    | some set =>
        rw [List.getD_eq_getElem?_getD, found, Option.getD_some] at member
        exact Or.inr ⟨set, List.mem_of_getElem? found, member⟩
  · exact fun _ _ behind _ => behind
  · exact fun _ _ _ _ _ _ ahead => ahead
  · exact fun _ _ _ _ _ ahead => ahead
  · intro block _ _ x member
    rw [support, FactSet.mem_join_all]
    exact Or.inl member

theorem block_end_within (analysis : GenKill α) (flow : ControlFlow) (before after : Line → α → Prop)
    (bounds : analysis.Bounds flow before after) (facts : LineFacts α) (within : Within before after facts)
    (block : BlockId) (known : block < flow.blockCount) (x : α)
    (member : x ∈ analysis.blockEnd flow facts block) : after (flow.lines block).last x := by
  rw [mem_block_end] at member
  rcases member with ⟨ends, exit⟩ | ⟨child, edge, held⟩
  · exact bounds.exit block known ends x exit
  · exact bounds.last block known child edge x (within.before _ x held)

theorem transfer_within (analysis : GenKill α) (flow : ControlFlow) (before after : Line → α → Prop)
    (bounds : analysis.Bounds flow before after) (line : Line) (out : FactSet α)
    (carried : ∀ x ∈ out, after line x) (x : α) (member : x ∈ analysis.transfer line out) :
    before line x := by
  rw [mem_transfer] at member
  rcases member with gen | ⟨behind, kept⟩
  · exact bounds.gen line x gen
  · exact bounds.pass line x (carried x behind) kept

variable [Std.LawfulEqOrd α]

theorem sweep_line_still (analysis : GenKill α) (out : FactSet α) (sweep : Sweep α) (line : Line)
    (still : (analysis.sweepLine (out, sweep) line).2.changed = false) :
    (analysis.sweepLine (out, sweep) line).2 = sweep ∧ sweep.facts.after[line]? = some (some out) ∧
      sweep.facts.before[line]? = some (some (analysis.transfer line out)) := by
  have same : sweep.changed = false ∧ sweep.facts.after[line]? = some (some out) ∧
      sweep.facts.before[line]? = some (some (analysis.transfer line out)) := by
    have unchanged := mt (sweep_line_changed analysis out sweep line).mpr (by simp [still])
    simpa only [not_or, ne_eq, not_not, Bool.not_eq_true] using unchanged
  obtain ⟨calm, after, before⟩ := same
  refine ⟨?_, after, before⟩
  rw [sweepLine]
  simp [update, after, before]

theorem sweep_lines_still (analysis : GenKill α) (first : Line) (more : Nat) (out : FactSet α)
    (sweep : Sweep α)
    (still : ((List.range' first (more + 1)).reverse.foldl analysis.sweepLine (out, sweep)).2.changed =
      false) :
    ((List.range' first (more + 1)).reverse.foldl analysis.sweepLine (out, sweep)).2 = sweep ∧
    sweep.facts.after[first + more]? = some (some out) ∧
    (∀ line, first ≤ line → line < first + more →
      sweep.facts.after[line]? = sweep.facts.before[line + 1]?) ∧
    ∀ line, first ≤ line → line ≤ first + more →
      ∃ set, sweep.facts.after[line]? = some (some set) ∧
        sweep.facts.before[line]? = some (some (analysis.transfer line set)) := by
  rw [range_reverse, List.foldl_cons] at still ⊢
  induction more generalizing out sweep with
  | zero =>
      obtain ⟨same, after, before⟩ := sweep_line_still analysis out sweep _ still
      refine ⟨same, after, ?_, ?_⟩
      · intro line low high
        lia
      · intro line low high
        obtain rfl : line = first + 0 := by lia
        exact ⟨out, after, before⟩
  | succ more ih =>
      rw [range_reverse, List.foldl_cons] at still ⊢
      have rest := ih (analysis.sweepLine (out, sweep) (first + (more + 1))).1
        (analysis.sweepLine (out, sweep) (first + (more + 1))).2 still
      rw [Prod.mk.eta] at rest
      obtain ⟨sameRest, afterRest, nextRest, transferRest⟩ := rest
      rw [sameRest] at still ⊢
      obtain ⟨same, after, before⟩ := sweep_line_still analysis out sweep _ still
      rw [same] at afterRest nextRest transferRest
      refine ⟨same, after, ?_, ?_⟩
      · intro line low high
        by_cases top : line = first + more
        · rw [top, afterRest]
          exact before.symm
        · exact nextRest line low (by lia)
      · intro line low high
        by_cases top : line = first + (more + 1)
        · rw [top]
          exact ⟨out, after, before⟩
        · exact transferRest line low (by lia)

theorem sweep_block_still (analysis : GenKill α) (flow : ControlFlow) (block : BlockId)
    (order : (flow.lines block).first ≤ (flow.lines block).last) (sweep : Sweep α)
    (still : (analysis.sweepBlock flow sweep block).changed = false) :
    analysis.sweepBlock flow sweep block = sweep ∧ analysis.Settled flow sweep.facts block := by
  have last : (flow.lines block).first + ((flow.lines block).last - (flow.lines block).first) =
      (flow.lines block).last := by lia
  unfold sweepBlock at still ⊢
  rw [lines_reverse _ order] at still ⊢
  obtain ⟨same, after, next, transfer⟩ := analysis.sweep_lines_still _ _ _ sweep still
  rw [last] at after next transfer
  exact ⟨same, after, next, transfer⟩

theorem sweep_still (analysis : GenKill α) (flow : ControlFlow) (count : Nat) (tiled : flow.Tiled count)
    (facts : LineFacts α) (still : (analysis.sweep flow facts).changed = false) :
    (analysis.sweep flow facts).facts = facts ∧
      ∀ block ∈ flow.reversePostOrder, analysis.Settled flow facts block := by
  have run : ∀ (blocks : List BlockId) (sweep : Sweep α), (∀ block ∈ blocks, block < flow.blockCount) →
      (blocks.foldl (analysis.sweepBlock flow) sweep).changed = false →
      blocks.foldl (analysis.sweepBlock flow) sweep = sweep ∧
        ∀ block ∈ blocks, analysis.Settled flow sweep.facts block := by
    intro blocks
    induction blocks with
    | nil => exact fun sweep _ _ => ⟨rfl, by simp⟩
    | cons block rest ih =>
        intro sweep inside still
        obtain ⟨sameRest, settledRest⟩ := ih (analysis.sweepBlock flow sweep block)
          (fun other member => inside other (List.mem_cons_of_mem block member)) still
        rw [List.foldl_cons, sameRest] at still ⊢
        obtain ⟨same, settled⟩ := analysis.sweep_block_still flow block
          (tiled.order block (inside block List.mem_cons_self)) sweep still
        rw [same] at settledRest
        refine ⟨same, ?_⟩
        intro other member
        rcases List.mem_cons.mp member with rfl | later
        · exact settled
        · exact settledRest other later
  obtain ⟨same, settled⟩ := run flow.reversePostOrder.reverse ⟨facts, false⟩
    (fun block member => flow.order_explored.1 block (List.mem_reverse.mp member)) still
  refine ⟨congrArg Sweep.facts same, ?_⟩
  intro block member
  exact settled block (List.mem_reverse.mpr member)

def rounds (analysis : GenKill α) (flow : ControlFlow) (n : Nat) (facts : LineFacts α) : LineFacts α :=
  (fun facts => (analysis.sweep flow facts).facts)^[n] facts

theorem rounds_succ (analysis : GenKill α) (flow : ControlFlow) (n : Nat) (facts : LineFacts α) :
    analysis.rounds flow (n + 1) facts = (analysis.sweep flow (analysis.rounds flow n facts)).facts :=
  Function.iterate_succ_apply' _ n facts

def Ends (analysis : GenKill α) (flow : ControlFlow) (facts : LineFacts α) (n : Nat) : Prop :=
  ∀ k, (analysis.sweep flow (analysis.rounds flow k facts)).changed = true ↔ k < n

section Below

variable (analysis : GenKill α) (flow : ControlFlow) (before after : Line → α → Prop)
  (bounds : analysis.Bounds flow before after)

include bounds

theorem sweep_line_within (out : FactSet α) (sweep : Sweep α) (line : Line)
    (within : Within before after sweep.facts) (carried : ∀ x ∈ out, after line x) :
    Within before after (analysis.sweepLine (out, sweep) line).2.facts := by
  refine ⟨?_, ?_⟩
  · intro other x held
    rw [sweep_line_before] at held
    rcases Slots.holds_set_cases _ line _ other x held with ⟨same, member⟩ | old
    · rw [same]
      exact analysis.transfer_within flow before after bounds line out carried x member
    · exact within.before other x old
  · intro other x held
    rw [sweep_line_after] at held
    rcases Slots.holds_set_cases _ line _ other x held with ⟨same, member⟩ | old
    · rw [same]
      exact carried x member
    · exact within.after other x old

theorem sweep_lines_within (block : BlockId) (known : block < flow.blockCount) (more : Nat)
    (inside : (flow.lines block).first + more ≤ (flow.lines block).last) (out : FactSet α)
    (sweep : Sweep α) (within : Within before after sweep.facts)
    (carried : ∀ x ∈ out, after ((flow.lines block).first + more) x) :
    Within before after ((List.range' (flow.lines block).first (more + 1)).reverse.foldl
      analysis.sweepLine (out, sweep)).2.facts := by
  have one := sweep_line_within analysis flow before after bounds out sweep _ within carried
  rw [range_reverse, List.foldl_cons]
  induction more generalizing out sweep with
  | zero => exact one
  | succ more ih =>
      rw [range_reverse, List.foldl_cons]
      have carriedNext : ∀ x ∈ (analysis.sweepLine (out, sweep) ((flow.lines block).first + (more + 1))).1,
          after ((flow.lines block).first + more) x := by
        intro x member
        apply bounds.next block known _ x (by lia) (by lia)
        exact analysis.transfer_within flow before after bounds _ out carried x member
      exact ih (by lia) _ _ one carriedNext
        (sweep_line_within analysis flow before after bounds _ _ _ one carriedNext)

theorem sweep_within (count : Nat) (tiled : flow.Tiled count) (facts : LineFacts α)
    (within : Within before after facts) : Within before after (analysis.sweep flow facts).facts := by
  have run : ∀ (blocks : List BlockId) (sweep : Sweep α), (∀ block ∈ blocks, block < flow.blockCount) →
      Within before after sweep.facts →
      Within before after (blocks.foldl (analysis.sweepBlock flow) sweep).facts := by
    intro blocks
    induction blocks with
    | nil => exact fun _ _ within => within
    | cons block rest ih =>
        intro sweep inside within
        have known := inside block List.mem_cons_self
        have order := tiled.order block known
        apply ih _ (fun other member => inside other (List.mem_cons_of_mem block member))
        rw [sweepBlock, lines_reverse _ order]
        apply sweep_lines_within analysis flow before after bounds block known _ (by lia) _ sweep within
        rw [show (flow.lines block).first + ((flow.lines block).last - (flow.lines block).first) =
          (flow.lines block).last by lia]
        exact analysis.block_end_within flow before after bounds sweep.facts within block known
  exact run _ _ (fun block member => flow.order_explored.1 block (List.mem_reverse.mp member)) within

theorem rounds_within (count : Nat) (tiled : flow.Tiled count) (facts : LineFacts α)
    (within : Within before after facts) (n : Nat) : Within before after (analysis.rounds flow n facts) := by
  induction n with
  | zero => exact within
  | succ n ih =>
      rw [rounds_succ]
      exact sweep_within analysis flow before after bounds count tiled _ ih

end Below

section Rounds

variable (analysis : GenKill α) (flow : ControlFlow) (count : Nat) (tiled : flow.Tiled count)
  (facts : LineFacts α)

include tiled

theorem rounds_consistent (consistent : analysis.Consistent flow count facts) (n : Nat) :
    analysis.Consistent flow count (analysis.rounds flow n facts) := by
  induction n with
  | zero => exact consistent
  | succ n ih =>
      rw [rounds_succ]
      exact (analysis.sweep_step flow count tiled _ ih).1

theorem rounds_total (consistent : analysis.Consistent flow count facts) (n : Nat)
    (changing : ∀ k < n, (analysis.sweep flow (analysis.rounds flow k facts)).changed = true) :
    n ≤ total (analysis.rounds flow n facts) := by
  induction n with
  | zero => exact Nat.zero_le _
  | succ n ih =>
      have before := ih fun k less => changing k (Nat.lt_succ_of_lt less)
      have progress := (analysis.sweep_step flow count tiled _
        (analysis.rounds_consistent flow count tiled facts consistent n)).2
      rcases progress.changed (changing n n.lt_succ_self) with early | grown
      · exact absurd early Bool.false_ne_true
      · rw [rounds_succ]
        simp only at grown
        lia

theorem rounds_still (n : Nat)
    (still : (analysis.sweep flow (analysis.rounds flow n facts)).changed = false) (k : Nat) (later : n ≤ k) :
    analysis.rounds flow k facts = analysis.rounds flow n facts := by
  induction k, later using Nat.le_induction with
  | base => rfl
  | succ k _ ih =>
      rw [rounds_succ, ih]
      exact (analysis.sweep_still flow count tiled _ still).1

theorem rounds_end (consistent : analysis.Consistent flow count facts) (limit : Nat)
    (bounded : ∀ n, total (analysis.rounds flow n facts) ≤ limit) : ∃ n, analysis.Ends flow facts n := by
  -- There is room for so many facts only, so that in the end a sweep changes nothing.
  have stops : ∃ n, (analysis.sweep flow (analysis.rounds flow n facts)).changed = false := by
    by_contra never
    have changing : ∀ k < limit + 1, (analysis.sweep flow (analysis.rounds flow k facts)).changed = true := by
      intro k _
      exact Bool.eq_true_of_not_eq_false fun still => never ⟨k, still⟩
    have grown := analysis.rounds_total flow count tiled facts consistent (limit + 1) changing
    have bound := bounded (limit + 1)
    lia
  classical
  refine ⟨Nat.find stops, ?_⟩
  intro k
  constructor
  · intro changed
    by_contra late
    rw [analysis.rounds_still flow count tiled facts _ (Nat.find_spec stops) k (Nat.le_of_not_lt late),
      Nat.find_spec stops] at changed
    cases changed
  · intro less
    exact Bool.eq_true_of_not_eq_false (Nat.find_min stops less)

theorem iterate_rounds (n : Nat) (ends : analysis.Ends flow facts n) (sweeps : Nat) (enough : n < sweeps) :
    analysis.iterate flow sweeps facts = analysis.rounds flow n facts := by
  induction n generalizing sweeps facts with
  | zero =>
      obtain ⟨sweeps, rfl⟩ := Nat.exists_eq_succ_of_ne_zero (Nat.ne_of_gt enough)
      have still : ¬ (analysis.sweep flow facts).changed = true := mt (ends 0).mp (Nat.lt_irrefl 0)
      rw [iterate, if_neg still]
      exact (analysis.sweep_still flow count tiled facts (Bool.eq_false_of_not_eq_true still)).1
  | succ n ih =>
      obtain ⟨sweeps, rfl⟩ := Nat.exists_eq_succ_of_ne_zero (Nat.ne_of_gt (Nat.lt_of_le_of_lt (Nat.zero_le _) enough))
      have changed : (analysis.sweep flow facts).changed = true := (ends 0).mpr n.succ_pos
      rw [iterate, if_pos changed]
      apply ih _ _ sweeps (Nat.lt_of_succ_lt_succ enough)
      intro k
      rw [← Nat.succ_lt_succ_iff]
      exact ends (k + 1)

end Rounds

theorem total_le (analysis : GenKill α) (flow : ControlFlow) (count : Nat) (facts : LineFacts α)
    (consistent : analysis.Consistent flow count facts) (bound : FactSet α)
    (inside : ∀ line x, Slots.Holds facts.before line x ∨ Slots.Holds facts.after line x → x ∈ bound) :
    total facts ≤ 2 * flow.covered count * bound.size := by
  have before := Slots.weight_le facts.before bound fun line x held => inside line x (Or.inl held)
  have after := Slots.weight_le facts.after bound fun line x held => inside line x (Or.inr held)
  rw [covered_count flow count _ consistent.coveredBefore] at before
  rw [covered_count flow count _ consistent.coveredAfter] at after
  rw [total, Nat.mul_assoc, Nat.two_mul]
  lia

/-- The facts satisfy all equations, and no others do that hold less. -/
structure Solution (analysis : GenKill α) (flow : ControlFlow) (count : Nat) (facts : LineFacts α) :
    Prop where
  consistent : analysis.Consistent flow count facts
  settled : ∀ block ∈ flow.reversePostOrder, analysis.Settled flow facts block
  least : ∀ before after, analysis.Bounds flow before after → Within before after facts

theorem solve_rounds (analysis : GenKill α) (flow : ControlFlow) (count : Nat) (tiled : flow.Tiled count) :
    ∃ n, analysis.Ends flow (initial flow count) n ∧
      analysis.solve flow count = analysis.rounds flow n (initial flow count) := by
  have consistent := analysis.initial_consistent flow count tiled
  have bounded : ∀ n, total (analysis.rounds flow n (initial flow count)) ≤
      2 * flow.covered count * analysis.support.size := by
    intro n
    have within := rounds_within analysis flow _ _ (analysis.support_bounds flow) count tiled _
      (initial_within flow count _ _) n
    apply analysis.total_le flow count _ (analysis.rounds_consistent flow count tiled _ consistent n)
    rintro line x (held | held)
    · exact within.before line x held
    · exact within.after line x held
  obtain ⟨n, ends⟩ := analysis.rounds_end flow count tiled _ consistent _ bounded
  refine ⟨n, ends, analysis.iterate_rounds flow count tiled _ n ends _ ?_⟩
  have few := analysis.rounds_total flow count tiled _ consistent n fun k less => (ends k).mpr less
  calc n ≤ 2 * flow.covered count * analysis.support.size := Nat.le_trans few (bounded n)
    _ ≤ 2 * count * analysis.support.size :=
        Nat.mul_le_mul_right _ (Nat.mul_le_mul_left 2 (flow.covered_le count))
    _ < 2 * count * analysis.support.size + 1 := Nat.lt_succ_self _

theorem solve_still (analysis : GenKill α) (flow : ControlFlow) (count : Nat) (tiled : flow.Tiled count) :
    (analysis.sweep flow (analysis.solve flow count)).changed = false := by
  obtain ⟨n, ends, same⟩ := analysis.solve_rounds flow count tiled
  rw [same]
  exact Bool.eq_false_of_not_eq_true (mt (ends n).mp (Nat.lt_irrefl n))

theorem solve_solution (analysis : GenKill α) (flow : ControlFlow) (count : Nat)
    (tiled : flow.Tiled count) : analysis.Solution flow count (analysis.solve flow count) := by
  have still := analysis.solve_still flow count tiled
  obtain ⟨n, _, same⟩ := analysis.solve_rounds flow count tiled
  refine ⟨?_, (analysis.sweep_still flow count tiled _ still).2, ?_⟩
  · rw [same]
    exact analysis.rounds_consistent flow count tiled _ (analysis.initial_consistent flow count tiled) n
  · intro before after bounds
    rw [same]
    exact rounds_within analysis flow before after bounds count tiled _ (initial_within flow count before after) n

end GenKill

end ThreeAddress
