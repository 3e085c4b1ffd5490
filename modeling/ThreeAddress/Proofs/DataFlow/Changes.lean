import ThreeAddress.Proofs.DataFlow.Solution
import ThreeAddress.Proofs.Flow.Traversal

set_option autoImplicit false

namespace ThreeAddress

variable {α : Type} [Ord α]

namespace LineFacts

def around (facts : LineFacts α) (line : Line) : Option (Option (FactSet α)) × Option (Option (FactSet α)) :=
  (facts.before[line]?, facts.after[line]?)

theorem ext_around (facts other : LineFacts α) (same : ∀ line, facts.around line = other.around line) :
    facts = other := by
  cases facts with
  | mk before after =>
      cases other with
      | mk otherBefore otherAfter =>
          have sameBefore : before = otherBefore :=
            List.ext_getElem? fun line => congrArg Prod.fst (same line)
          have sameAfter : after = otherAfter :=
            List.ext_getElem? fun line => congrArg Prod.snd (same line)
          rw [sameBefore, sameAfter]

structure Fits (facts : LineFacts α) (count : Nat) : Prop where
  before : facts.before.length = count
  after : facts.after.length = count

end LineFacts

namespace GenKill

/-- A sweep goes on through these lines: it writes to no other line, and reports whether the slots
of one of them differ from what they were. -/
structure Written (lines : List Line) (earlier later : Sweep α) : Prop where
  frame : ∀ line, line ∉ lines → later.facts.around line = earlier.facts.around line
  changed : later.changed = true ↔ earlier.changed = true ∨
    ∃ line ∈ lines, later.facts.around line ≠ earlier.facts.around line

theorem written_refl (sweep : Sweep α) : Written [] sweep sweep :=
  ⟨fun _ _ => rfl, by simp⟩

theorem written_trans (first second : List Line) (disjoint : first.Disjoint second)
    (early middle late : Sweep α) (one : Written first early middle) (two : Written second middle late) :
    Written (first ++ second) early late := by
  -- No line is written twice, so that neither part undoes what the other has done.
  refine ⟨?_, ?_⟩
  · intro line outside
    rw [List.mem_append, not_or] at outside
    exact (two.frame line outside.2).trans (one.frame line outside.1)
  · have kept : ∀ line ∈ first, late.facts.around line = middle.facts.around line := fun line member =>
      two.frame line fun other => disjoint member other
    have fresh : ∀ line ∈ second, middle.facts.around line = early.facts.around line := fun line member =>
      one.frame line fun other => disjoint other member
    rw [two.changed, one.changed, or_assoc]
    apply or_congr Iff.rfl
    constructor
    · rintro (⟨line, member, differs⟩ | ⟨line, member, differs⟩)
      · exact ⟨line, List.mem_append_left second member, by rwa [kept line member]⟩
      · exact ⟨line, List.mem_append_right first member, by rwa [← fresh line member]⟩
    · rintro ⟨line, member, differs⟩
      rcases List.mem_append.mp member with inFirst | inSecond
      · exact Or.inl ⟨line, inFirst, by rwa [← kept line inFirst]⟩
      · exact Or.inr ⟨line, inSecond, by rwa [fresh line inSecond]⟩

variable [Std.TransOrd α] [Std.LawfulEqOrd α] (analysis : GenKill α)

theorem sweep_line_fits (count : Nat) (out : FactSet α) (sweep : Sweep α) (line : Line)
    (fits : sweep.facts.Fits count) : (analysis.sweepLine (out, sweep) line).2.facts.Fits count := by
  refine ⟨?_, ?_⟩
  · rw [sweep_line_before, List.length_set, fits.before]
  · rw [sweep_line_after, List.length_set, fits.after]

theorem sweep_line_written (count : Nat) (out : FactSet α) (sweep : Sweep α) (line : Line)
    (fits : sweep.facts.Fits count) (bound : line < count) :
    Written [line] sweep (analysis.sweepLine (out, sweep) line).2 := by
  refine ⟨?_, ?_⟩
  · intro other outside
    have different : line ≠ other := fun same => outside (List.mem_singleton.mpr same.symm)
    simp only [LineFacts.around, sweep_line_before, sweep_line_after, List.getElem?_set_ne different]
  · have before := List.getElem?_set_self (a := some (analysis.transfer line out))
      (show line < sweep.facts.before.length by rw [fits.before]; exact bound)
    have after := List.getElem?_set_self (a := some out)
      (show line < sweep.facts.after.length by rw [fits.after]; exact bound)
    rw [sweep_line_changed]
    simp only [List.mem_singleton, exists_eq_left, LineFacts.around, sweep_line_before, sweep_line_after, before,
      after, ne_eq, Prod.mk.injEq, not_and_or]
    tauto

theorem sweep_lines_written (count : Nat) (lines : List Line) (distinct : lines.Nodup)
    (bound : ∀ line ∈ lines, line < count) (out : FactSet α) (sweep : Sweep α) (fits : sweep.facts.Fits count) :
    (lines.foldl analysis.sweepLine (out, sweep)).2.facts.Fits count ∧
      Written lines sweep (lines.foldl analysis.sweepLine (out, sweep)).2 := by
  induction lines generalizing out sweep with
  | nil => exact ⟨fits, written_refl sweep⟩
  | cons line rest ih =>
      obtain ⟨new, others⟩ := List.nodup_cons.mp distinct
      have one := analysis.sweep_line_written count out sweep line fits (bound line List.mem_cons_self)
      obtain ⟨fitsLast, more⟩ := ih others (fun other member => bound other (List.mem_cons_of_mem line member))
        (analysis.sweepLine (out, sweep) line).1 (analysis.sweepLine (out, sweep) line).2
        (analysis.sweep_line_fits count out sweep line fits)
      exact ⟨fitsLast, written_trans [line] rest (List.singleton_disjoint.mpr new) _ _ _ one more⟩

section Tiled

variable (flow : ControlFlow) (count : Nat) (tiled : flow.Tiled count)

theorem mem_lines (range : LineRange) (line : Line) : line ∈ range.toList.reverse ↔ range.contains line = true := by
  rw [List.mem_reverse, range.mem_to_list]

include tiled

theorem sweep_blocks_written (blocks : List BlockId) (distinct : blocks.Nodup)
    (known : ∀ block ∈ blocks, block < flow.blockCount) (sweep : Sweep α) (fits : sweep.facts.Fits count) :
    Written (blocks.flatMap fun block => (flow.lines block).toList.reverse) sweep
      (blocks.foldl (analysis.sweepBlock flow) sweep) := by
  induction blocks generalizing sweep with
  | nil => exact written_refl sweep
  | cons block rest ih =>
      obtain ⟨new, others⟩ := List.nodup_cons.mp distinct
      have inside := known block List.mem_cons_self
      have bound : ∀ line ∈ (flow.lines block).toList.reverse, line < count := by
        intro line member
        have last := tiled.bound block inside
        rw [mem_lines, LineRange.contains, Bool.and_eq_true, decide_eq_true_eq, decide_eq_true_eq] at member
        lia
      obtain ⟨fitsNext, one⟩ := analysis.sweep_lines_written count (flow.lines block).toList.reverse
        (List.nodup_reverse.mpr List.nodup_range') bound (analysis.blockEnd flow sweep.facts block) sweep fits
      have more := ih others (fun other member => known other (List.mem_cons_of_mem block member)) _ fitsNext
      apply written_trans _ _ _ sweep _ _ one more
      -- A line of this block lies in no other.
      intro line here there
      obtain ⟨other, member, also⟩ := List.mem_flatMap.mp there
      rw [mem_lines] at here also
      have same := tiled.disjoint block inside other (known other (List.mem_cons_of_mem block member)) line here also
      exact new (same ▸ member)

theorem sweep_written (facts : LineFacts α) (fits : facts.Fits count) :
    Written (flow.reversePostOrder.reverse.flatMap fun block => (flow.lines block).toList.reverse) ⟨facts, false⟩
      (analysis.sweep flow facts) := by
  apply analysis.sweep_blocks_written flow count tiled _ _ _ ⟨facts, false⟩ fits
  · exact List.nodup_reverse.mpr flow.order_topological.distinct
  · exact fun block member => flow.order_explored.1 block (List.mem_reverse.mp member)

theorem sweep_changed_iff (facts : LineFacts α) (fits : facts.Fits count) :
    (analysis.sweep flow facts).changed = true ↔ (analysis.sweep flow facts).facts ≠ facts := by
  have written := analysis.sweep_written flow count tiled facts fits
  rw [written.changed]
  constructor
  · rintro (early | ⟨line, _, differs⟩) same
    · cases early
    · exact differs (by rw [same])
  · intro differs
    by_contra quiet
    rw [not_or, not_exists] at quiet
    apply differs
    apply LineFacts.ext_around
    intro line
    by_cases member : line ∈ flow.reversePostOrder.reverse.flatMap fun block => (flow.lines block).toList.reverse
    · by_contra other
      exact quiet.2 line ⟨member, other⟩
    · exact written.frame line member

theorem sweep_outside (facts : LineFacts α) (fits : facts.Fits count) (line : Line)
    (outside : ∀ block < flow.blockCount, (flow.lines block).contains line = false) :
    (analysis.sweep flow facts).facts.around line = facts.around line := by
  apply (analysis.sweep_written flow count tiled facts fits).frame
  intro member
  obtain ⟨block, listed, inside⟩ := List.mem_flatMap.mp member
  rw [mem_lines, outside block (flow.order_explored.1 block (List.mem_reverse.mp listed))] at inside
  cases inside

end Tiled

end GenKill

end ThreeAddress
