import ThreeAddress.Proofs.DataFlow.Slots
import ThreeAddress.Proofs.Flow.Order

set_option autoImplicit false

namespace ThreeAddress

structure ControlFlow.Tiled (flow : ControlFlow) (count : Nat) : Prop where
  order : ∀ block < flow.blockCount, (flow.lines block).first ≤ (flow.lines block).last
  bound : ∀ block < flow.blockCount, (flow.lines block).last < count
  disjoint : ∀ a < flow.blockCount, ∀ b < flow.blockCount, ∀ line,
    (flow.lines a).contains line = true → (flow.lines b).contains line = true → a = b

def ControlFlow.covered (flow : ControlFlow) (count : Nat) : Nat :=
  (List.range count).countP fun line =>
    (List.range flow.blockCount).any fun block => (flow.lines block).contains line

theorem ControlFlow.covered_le (flow : ControlFlow) (count : Nat) : flow.covered count ≤ count := by
  simpa [covered] using List.countP_le_length (p := fun line =>
    (List.range flow.blockCount).any fun block => (flow.lines block).contains line) (l := List.range count)

namespace GenKill

variable {α : Type} [Ord α]

structure Covered (flow : ControlFlow) (count : Nat) (slots : Slots α) : Prop where
  length : slots.length = count
  present : ∀ line, (∃ set, slots[line]? = some (some set)) ↔
    ∃ block < flow.blockCount, (flow.lines block).contains line = true

theorem covered_set (flow : ControlFlow) (count : Nat) (slots : Slots α)
    (covered : Covered flow count slots) (line : Line) (value old : FactSet α)
    (found : slots[line]? = some (some old)) : Covered flow count (slots.set line (some value)) := by
  refine ⟨by rw [List.length_set, covered.length], ?_⟩
  intro other
  rw [← covered.present]
  by_cases same : other = line
  · subst same
    have bound := (List.getElem?_eq_some_iff.mp found).1
    rw [List.getElem?_set_self bound]
    exact ⟨fun _ => ⟨old, found⟩, fun _ => ⟨value, rfl⟩⟩
  · rw [List.getElem?_set_ne (Ne.symm same)]

theorem covered_count (flow : ControlFlow) (count : Nat) (slots : Slots α) (covered : Covered flow count slots) :
    slots.countP Option.isSome = flow.covered count := by
  have listed : slots = (List.range count).map fun line => (slots[line]?).join := by
    apply List.ext_getElem (by simp [covered.length])
    intro line inside _
    simp [List.getElem?_eq_getElem inside]
  rw [listed, List.countP_map, ControlFlow.covered]
  apply List.countP_congr
  intro line _
  have present := covered.present line
  simp only [Function.comp_apply, Option.isSome_iff_exists, Option.join_eq_some_iff, List.any_eq_true, List.mem_range]
  exact present

variable [Std.TransOrd α]

theorem mem_transfer (analysis : GenKill α) (line : Line) (after : FactSet α) (x : α) :
    x ∈ analysis.transfer line after ↔
      x ∈ analysis.gen.getD line ∅ ∨ (x ∈ after ∧ x ∉ analysis.kill.getD line ∅) := by
  rw [transfer, Std.ExtTreeSet.mem_union_iff, Std.ExtTreeSet.mem_diff_iff, or_comm]

theorem mem_block_end (analysis : GenKill α) (flow : ControlFlow) (facts : LineFacts α)
    (block : BlockId) (x : α) :
    x ∈ analysis.blockEnd flow facts block ↔
      ((flow.successors block).isTerminated = true ∧ x ∈ analysis.exit) ∨
      ∃ child ∈ (flow.successors block).toList, Slots.Holds facts.before (flow.lines child).first x := by
  unfold blockEnd
  have joined : x ∈ (FactSet.joinAll ∅ ((flow.successors block).toList.filterMap fun successor =>
      facts.before? (flow.lines successor).first)).1 ↔
      ∃ child ∈ (flow.successors block).toList, Slots.Holds facts.before (flow.lines child).first x := by
    simp only [FactSet.mem_join_all, Std.ExtTreeSet.not_mem_empty, false_or, List.mem_filterMap,
      LineFacts.before?, Option.join_eq_some_iff, Slots.Holds]
    constructor
    · intro present
      obtain ⟨set, ⟨child, edge, found⟩, member⟩ := present
      exact ⟨child, edge, set, found, member⟩
    · intro present
      obtain ⟨child, edge, set, found, member⟩ := present
      exact ⟨set, ⟨child, edge, found⟩, member⟩
  by_cases ends : (flow.successors block).isTerminated = true
  · have childless : (flow.successors block).toList = [] := by
      cases next : flow.successors block with
      | terminated => rfl
      | continuous child => simp [next, Successors.isTerminated] at ends
      | branching fallthrough target => simp [next, Successors.isTerminated] at ends
    simp only [if_pos ends, childless]
    simp [ends]
  · simp only [if_neg ends, joined]
    simp [ends]

/-- What flows out of a line: what holds before the next line of the block, or at its end. -/
def Outflow (analysis : GenKill α) (flow : ControlFlow) (facts : LineFacts α) (line : Line) (x : α) :
    Prop :=
  ∃ block < flow.blockCount, (flow.lines block).contains line = true ∧
    if line = (flow.lines block).last then x ∈ analysis.blockEnd flow facts block
    else Slots.Holds facts.before (line + 1) x

structure Includes (less more : LineFacts α) : Prop where
  before : ∀ line x, Slots.Holds less.before line x → Slots.Holds more.before line x
  after : ∀ line x, Slots.Holds less.after line x → Slots.Holds more.after line x

theorem block_end_mono (analysis : GenKill α) (flow : ControlFlow) (less more : LineFacts α)
    (includes : Includes less more) (block : BlockId) (x : α)
    (member : x ∈ analysis.blockEnd flow less block) : x ∈ analysis.blockEnd flow more block := by
  rw [mem_block_end] at member ⊢
  rcases member with exit | ⟨child, edge, held⟩
  · exact Or.inl exit
  · exact Or.inr ⟨child, edge, includes.before _ x held⟩

theorem outflow_mono (analysis : GenKill α) (flow : ControlFlow) (less more : LineFacts α)
    (includes : Includes less more) (line : Line) (x : α) (outflow : analysis.Outflow flow less line x) :
    analysis.Outflow flow more line x := by
  obtain ⟨block, bound, inside, source⟩ := outflow
  refine ⟨block, bound, inside, ?_⟩
  by_cases last : line = (flow.lines block).last
  · rw [if_pos last] at source ⊢
    exact analysis.block_end_mono flow less more includes block x source
  · rw [if_neg last] at source ⊢
    exact includes.before (line + 1) x source

theorem outflow_block (analysis : GenKill α) (flow : ControlFlow) (count : Nat)
    (tiled : flow.Tiled count) (facts : LineFacts α) (block : BlockId) (bound : block < flow.blockCount)
    (line : Line) (inside : (flow.lines block).contains line = true) (x : α) :
    analysis.Outflow flow facts line x ↔
      if line = (flow.lines block).last then x ∈ analysis.blockEnd flow facts block
      else Slots.Holds facts.before (line + 1) x := by
  -- Blocks are disjoint, so that the block of a line decides what flows out of it.
  constructor
  · intro outflow
    obtain ⟨other, otherBound, otherInside, source⟩ := outflow
    rw [tiled.disjoint block bound other otherBound line inside otherInside]
    exact source
  · intro source
    exact ⟨block, bound, inside, source⟩

structure Consistent (analysis : GenKill α) (flow : ControlFlow) (count : Nat) (facts : LineFacts α) :
    Prop where
  coveredBefore : Covered flow count facts.before
  coveredAfter : Covered flow count facts.after
  before : ∀ line x, Slots.Holds facts.before line x →
    x ∈ analysis.gen.getD line ∅ ∨ (Slots.Holds facts.after line x ∧ x ∉ analysis.kill.getD line ∅)
  after : ∀ line x, Slots.Holds facts.after line x → analysis.Outflow flow facts line x

def total (facts : LineFacts α) : Nat := Slots.weight facts.before + Slots.weight facts.after

/-- A sweep that goes on only adds facts, and reports a change only if it adds some. -/
structure Progress (earlier later : Sweep α) : Prop where
  includes : Includes earlier.facts later.facts
  total : total earlier.facts ≤ total later.facts
  changed : later.changed = true → earlier.changed = true ∨ GenKill.total earlier.facts < GenKill.total later.facts

theorem progress_refl (sweep : Sweep α) : Progress sweep sweep :=
  ⟨⟨fun _ _ held => held, fun _ _ held => held⟩, Nat.le_refl _, Or.inl⟩

theorem progress_trans (first second third : Sweep α) (earlier : Progress first second)
    (later : Progress second third) : Progress first third := by
  refine ⟨⟨?_, ?_⟩, Nat.le_trans earlier.total later.total, ?_⟩
  · intro line x held
    exact later.includes.before line x (earlier.includes.before line x held)
  · intro line x held
    exact later.includes.after line x (earlier.includes.after line x held)
  · intro changed
    have bound := earlier.total
    rcases later.changed changed with middle | grown
    · rcases earlier.changed middle with before | grown
      · exact Or.inl before
      · exact Or.inr (Nat.lt_of_lt_of_le grown later.total)
    · exact Or.inr (Nat.lt_of_le_of_lt bound grown)

/-- The set carried to a line has what holds behind it, and all of it flows out of the line. -/
structure Ready (analysis : GenKill α) (flow : ControlFlow) (facts : LineFacts α) (line : Line)
    (out : FactSet α) : Prop where
  known : ∀ x, Slots.Holds facts.after line x → x ∈ out
  outflow : ∀ x, x ∈ out → analysis.Outflow flow facts line x

theorem block_end_ready (analysis : GenKill α) (flow : ControlFlow) (count : Nat)
    (tiled : flow.Tiled count) (facts : LineFacts α) (consistent : analysis.Consistent flow count facts)
    (block : BlockId) (bound : block < flow.blockCount) :
    analysis.Ready flow facts (flow.lines block).last (analysis.blockEnd flow facts block) := by
  have inside : (flow.lines block).contains (flow.lines block).last = true := by
    simpa [LineRange.contains] using tiled.order block bound
  have flows := analysis.outflow_block flow count tiled facts block bound _ inside
  simp only [if_pos] at flows
  refine ⟨?_, ?_⟩
  · intro x held
    exact (flows x).mp (consistent.after _ x held)
  · intro x member
    exact (flows x).mpr member

theorem known_before (analysis : GenKill α) (flow : ControlFlow) (count : Nat) (facts : LineFacts α)
    (consistent : analysis.Consistent flow count facts) (line : Line) (out : FactSet α)
    (ready : analysis.Ready flow facts line out) (x : α) (held : Slots.Holds facts.before line x) :
    x ∈ analysis.transfer line out := by
  -- What held before the line still does: it came from the line itself or from behind it.
  rw [mem_transfer]
  rcases consistent.before line x held with gen | ⟨behind, kept⟩
  · exact Or.inl gen
  · exact Or.inr ⟨ready.known x behind, kept⟩

variable [Std.LawfulEqOrd α]

theorem update_fst (slots : Slots α) (line : Line) (value : FactSet α) :
    (update slots line value).1 = slots.set line (some value) := by
  unfold update
  split
  next same =>
    obtain ⟨bound, equal⟩ := List.getElem?_eq_some_iff.mp same
    rw [← equal, List.set_getElem_self]
  next => rfl

theorem update_snd (slots : Slots α) (line : Line) (value : FactSet α) :
    (update slots line value).2 = true ↔ slots[line]? ≠ some (some value) := by
  unfold update
  split
  next same => simp [same]
  next different => simp [different]

theorem sweep_line_before (analysis : GenKill α) (after : FactSet α) (sweep : Sweep α) (line : Line) :
    (analysis.sweepLine (after, sweep) line).2.facts.before =
      sweep.facts.before.set line (some (analysis.transfer line after)) :=
  update_fst sweep.facts.before line (analysis.transfer line after)

theorem sweep_line_after (analysis : GenKill α) (after : FactSet α) (sweep : Sweep α) (line : Line) :
    (analysis.sweepLine (after, sweep) line).2.facts.after = sweep.facts.after.set line (some after) :=
  update_fst sweep.facts.after line after

theorem sweep_line_changed (analysis : GenKill α) (after : FactSet α) (sweep : Sweep α) (line : Line) :
    (analysis.sweepLine (after, sweep) line).2.changed = true ↔
      sweep.changed = true ∨ sweep.facts.after[line]? ≠ some (some after) ∨
        sweep.facts.before[line]? ≠ some (some (analysis.transfer line after)) := by
  rw [← update_snd, ← update_snd, ← or_assoc, ← Bool.or_eq_true, ← Bool.or_eq_true]
  rfl

section Line

variable (analysis : GenKill α) (flow : ControlFlow) (count : Nat) (out : FactSet α) (sweep : Sweep α)
  (line : Line)

theorem sweep_line_holds_before (covered : Covered flow count sweep.facts.before)
    (bound : line < count) (other : Line) (x : α) :
    Slots.Holds (analysis.sweepLine (out, sweep) line).2.facts.before other x ↔
      if other = line then x ∈ analysis.transfer line out else Slots.Holds sweep.facts.before other x := by
  rw [sweep_line_before]
  exact Slots.holds_set _ line _ (by rw [covered.length]; exact bound) other x

theorem sweep_line_holds_after (covered : Covered flow count sweep.facts.after)
    (bound : line < count) (other : Line) (x : α) :
    Slots.Holds (analysis.sweepLine (out, sweep) line).2.facts.after other x ↔
      if other = line then x ∈ out else Slots.Holds sweep.facts.after other x := by
  rw [sweep_line_after]
  exact Slots.holds_set _ line _ (by rw [covered.length]; exact bound) other x

variable (consistent : analysis.Consistent flow count sweep.facts) (bound : line < count)
  (ready : analysis.Ready flow sweep.facts line out)

include consistent bound ready

theorem sweep_line_includes : Includes sweep.facts (analysis.sweepLine (out, sweep) line).2.facts := by
  refine ⟨?_, ?_⟩
  · intro other x held
    rw [sweep_line_holds_before analysis flow count out sweep line consistent.coveredBefore bound]
    by_cases same : other = line
    · rw [if_pos same]
      subst same
      exact analysis.known_before flow count sweep.facts consistent other out ready x held
    · rw [if_neg same]
      exact held
  · intro other x held
    rw [sweep_line_holds_after analysis flow count out sweep line consistent.coveredAfter bound]
    by_cases same : other = line
    · rw [if_pos same]
      subst same
      exact ready.known x held
    · rw [if_neg same]
      exact held

theorem sweep_line_consistent (inside : ∃ block < flow.blockCount, (flow.lines block).contains line = true) :
    analysis.Consistent flow count (analysis.sweepLine (out, sweep) line).2.facts := by
  have includes := sweep_line_includes analysis flow count out sweep line consistent bound ready
  obtain ⟨oldBefore, foundBefore⟩ := (consistent.coveredBefore.present line).mpr inside
  obtain ⟨oldAfter, foundAfter⟩ := (consistent.coveredAfter.present line).mpr inside
  refine ⟨?_, ?_, ?_, ?_⟩
  · rw [sweep_line_before]
    exact covered_set flow count _ consistent.coveredBefore line _ oldBefore foundBefore
  · rw [sweep_line_after]
    exact covered_set flow count _ consistent.coveredAfter line _ oldAfter foundAfter
  · intro other x held
    rw [sweep_line_holds_before analysis flow count out sweep line consistent.coveredBefore bound] at held
    by_cases same : other = line
    · rw [if_pos same, mem_transfer] at held
      rw [same, sweep_line_holds_after analysis flow count out sweep line consistent.coveredAfter bound,
        if_pos rfl]
      exact held
    · rw [if_neg same] at held
      rcases consistent.before other x held with gen | ⟨behind, kept⟩
      · exact Or.inl gen
      · exact Or.inr ⟨includes.after other x behind, kept⟩
  · intro other x held
    rw [sweep_line_holds_after analysis flow count out sweep line consistent.coveredAfter bound] at held
    apply analysis.outflow_mono flow sweep.facts _ includes
    by_cases same : other = line
    · rw [if_pos same] at held
      rw [same]
      exact ready.outflow x held
    · rw [if_neg same] at held
      exact consistent.after other x held

theorem sweep_line_progress (inside : ∃ block < flow.blockCount, (flow.lines block).contains line = true) :
    Progress sweep (analysis.sweepLine (out, sweep) line).2 := by
  obtain ⟨oldBefore, foundBefore⟩ := (consistent.coveredBefore.present line).mpr inside
  obtain ⟨oldAfter, foundAfter⟩ := (consistent.coveredAfter.present line).mpr inside
  have subsetBefore : ∀ x, x ∈ oldBefore → x ∈ analysis.transfer line out := fun x member =>
    analysis.known_before flow count sweep.facts consistent line out ready x ⟨oldBefore, foundBefore, member⟩
  have subsetAfter : ∀ x, x ∈ oldAfter → x ∈ out := fun x member =>
    ready.known x ⟨oldAfter, foundAfter, member⟩
  have weightBefore := Slots.weight_set _ line oldBefore (analysis.transfer line out) foundBefore
  have weightAfter := Slots.weight_set _ line oldAfter out foundAfter
  have sizeBefore := FactSet.size_le oldBefore _ subsetBefore
  have sizeAfter := FactSet.size_le oldAfter out subsetAfter
  refine ⟨sweep_line_includes analysis flow count out sweep line consistent bound ready, ?_, ?_⟩
  · simp only [GenKill.total, sweep_line_before, sweep_line_after]
    lia
  · intro changed
    rw [sweep_line_changed, foundBefore, foundAfter] at changed
    simp only [GenKill.total, sweep_line_before, sweep_line_after]
    rcases changed with earlier | grownAfter | grownBefore
    · exact Or.inl earlier
    · have grown := FactSet.size_lt oldAfter out subsetAfter fun same => grownAfter (by rw [same])
      exact Or.inr (by lia)
    · have grown := FactSet.size_lt oldBefore _ subsetBefore fun same => grownBefore (by rw [same])
      exact Or.inr (by lia)

theorem sweep_line_ready (tiled : flow.Tiled count) (block : BlockId) (known : block < flow.blockCount)
    (below : Line) (next : below + 1 = line) (inside : (flow.lines block).contains below = true)
    (insideLine : (flow.lines block).contains line = true) :
    analysis.Ready flow (analysis.sweepLine (out, sweep) line).2.facts below
      (analysis.sweepLine (out, sweep) line).1 := by
  have notLast : below ≠ (flow.lines block).last := by
    simp only [LineRange.contains, Bool.and_eq_true, decide_eq_true_eq] at insideLine
    lia
  have different : below ≠ line := by lia
  refine ⟨?_, ?_⟩
  · intro x held
    rw [sweep_line_holds_after analysis flow count out sweep line consistent.coveredAfter bound,
      if_neg different] at held
    have source := (analysis.outflow_block flow count tiled sweep.facts block known below inside x).mp
      (consistent.after below x held)
    rw [if_neg notLast, next] at source
    exact analysis.known_before flow count sweep.facts consistent line out ready x source
  · intro x member
    rw [analysis.outflow_block flow count tiled _ block known below inside, if_neg notLast, next,
      sweep_line_holds_before analysis flow count out sweep line consistent.coveredBefore bound, if_pos rfl]
    exact member

end Line

theorem lines_reverse (range : LineRange) (order : range.first ≤ range.last) :
    range.toList.reverse = (List.range' range.first (range.last - range.first + 1)).reverse := by
  rw [LineRange.toList, show range.last + 1 - range.first = range.last - range.first + 1 by lia]

theorem range_reverse (first : Line) (more : Nat) :
    (List.range' first (more + 1)).reverse = (first + more) :: (List.range' first more).reverse := by
  rw [List.range'_1_concat, List.reverse_append]
  rfl

theorem sweep_lines_step (analysis : GenKill α) (flow : ControlFlow) (count : Nat)
    (tiled : flow.Tiled count) (block : BlockId) (known : block < flow.blockCount) (more : Nat)
    (within : (flow.lines block).first + more ≤ (flow.lines block).last) (out : FactSet α)
    (sweep : Sweep α) (consistent : analysis.Consistent flow count sweep.facts)
    (ready : analysis.Ready flow sweep.facts ((flow.lines block).first + more) out) :
    analysis.Consistent flow count
      ((List.range' (flow.lines block).first (more + 1)).reverse.foldl analysis.sweepLine
        (out, sweep)).2.facts ∧
    Progress sweep ((List.range' (flow.lines block).first (more + 1)).reverse.foldl analysis.sweepLine
      (out, sweep)).2 := by
  have contained : ∀ offset, offset ≤ more →
      (flow.lines block).contains ((flow.lines block).first + offset) = true := by
    intro offset small
    simp only [LineRange.contains, Bool.and_eq_true, decide_eq_true_eq]
    lia
  have bound : (flow.lines block).first + more < count := Nat.lt_of_le_of_lt within (tiled.bound block known)
  have inside := contained more (Nat.le_refl more)
  have consistentNext := sweep_line_consistent analysis flow count out sweep _ consistent bound ready
    ⟨block, known, inside⟩
  have progress := sweep_line_progress analysis flow count out sweep _ consistent bound ready
    ⟨block, known, inside⟩
  rw [range_reverse, List.foldl_cons]
  induction more generalizing out sweep with
  | zero => exact ⟨consistentNext, progress⟩
  | succ more ih =>
      have below := contained more (Nat.le_succ more)
      have readyNext := sweep_line_ready analysis flow count out sweep _ consistent bound ready tiled block
        known ((flow.lines block).first + more) rfl below inside
      have boundNext : (flow.lines block).first + more < count := by lia
      have deeper := ih (by lia) _ _ consistentNext readyNext
        (fun offset small => contained offset (by lia)) boundNext below
        (sweep_line_consistent analysis flow count _ _ _ consistentNext boundNext readyNext ⟨block, known, below⟩)
        (sweep_line_progress analysis flow count _ _ _ consistentNext boundNext readyNext ⟨block, known, below⟩)
      rw [range_reverse, List.foldl_cons]
      exact ⟨deeper.1, progress_trans _ _ _ progress deeper.2⟩

theorem sweep_block_step (analysis : GenKill α) (flow : ControlFlow) (count : Nat)
    (tiled : flow.Tiled count) (block : BlockId) (known : block < flow.blockCount) (sweep : Sweep α)
    (consistent : analysis.Consistent flow count sweep.facts) :
    analysis.Consistent flow count (analysis.sweepBlock flow sweep block).facts ∧
      Progress sweep (analysis.sweepBlock flow sweep block) := by
  have order := tiled.order block known
  have last : (flow.lines block).first + ((flow.lines block).last - (flow.lines block).first) =
      (flow.lines block).last := by lia
  unfold sweepBlock
  rw [lines_reverse _ order]
  apply analysis.sweep_lines_step flow count tiled block known _ (by lia) _ sweep consistent
  rw [last]
  exact analysis.block_end_ready flow count tiled sweep.facts consistent block known

theorem sweep_step (analysis : GenKill α) (flow : ControlFlow) (count : Nat) (tiled : flow.Tiled count)
    (facts : LineFacts α) (consistent : analysis.Consistent flow count facts) :
    analysis.Consistent flow count (analysis.sweep flow facts).facts ∧
      Progress ⟨facts, false⟩ (analysis.sweep flow facts) := by
  have known : ∀ block ∈ flow.reversePostOrder.reverse, block < flow.blockCount := fun block member =>
    flow.order_explored.1 block (List.mem_reverse.mp member)
  have run : ∀ (blocks : List BlockId) (sweep : Sweep α), (∀ block ∈ blocks, block < flow.blockCount) →
      analysis.Consistent flow count sweep.facts →
      analysis.Consistent flow count (blocks.foldl (analysis.sweepBlock flow) sweep).facts ∧
        Progress sweep (blocks.foldl (analysis.sweepBlock flow) sweep) := by
    intro blocks
    induction blocks with
    | nil => exact fun sweep _ consistent => ⟨consistent, progress_refl sweep⟩
    | cons block rest ih =>
        intro sweep inside consistent
        have one := analysis.sweep_block_step flow count tiled block (inside block List.mem_cons_self) sweep
          consistent
        have more := ih _ (fun other member => inside other (List.mem_cons_of_mem block member)) one.1
        exact ⟨more.1, progress_trans _ _ _ one.2 more.2⟩
  exact run _ _ known consistent

end GenKill

end ThreeAddress
