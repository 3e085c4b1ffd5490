import Mathlib.Data.List.Perm.Subperm
import ThreeAddress.Proofs.Flow.Lines

set_option autoImplicit false

namespace ThreeAddress

namespace LineRange

theorem contains_iff (range : LineRange) (line : Line) :
    range.contains line = true ↔ range.first ≤ line ∧ line ≤ range.last := by
  simp [contains]

theorem mem_to_list (range : LineRange) (line : Line) : line ∈ range.toList ↔ range.contains line = true := by
  rw [toList, List.mem_range'_1, contains_iff]
  lia

end LineRange

namespace FlowGraph

structure Placed (program : Program) (marks : Landmarks) (ranges : List LineRange) : Prop where
  leader : ∀ range ∈ ranges, range.first ∈ marks.leaders
  last : ∀ range ∈ ranges, range.last = marks.lastLine program.size range.first
  distinct : (ranges.map LineRange.first).Nodup

theorem placed_bounds (program : Program) (marks : Landmarks) (describes : Landmarks.Describes program marks)
    (ranges : List LineRange) (placed : Placed program marks ranges) (range : LineRange)
    (member : range ∈ ranges) :
    range.first ≤ range.last ∧ range.last < program.size ∧
    (∀ line, range.first < line → line ≤ range.last → line ∉ marks.leaders) ∧
    (range.last + 1 = program.size ∨ range.last + 1 ∈ marks.leaders) := by
  rw [placed.last range member]
  apply Landmarks.last_line_spec program marks describes range.first
  exact Landmarks.leader_lt_size program range.first
    ((describes.leaders range.first).mp (placed.leader range member))

theorem contains_leader (program : Program) (marks : Landmarks)
    (describes : Landmarks.Describes program marks) (ranges : List LineRange)
    (placed : Placed program marks ranges) (range : LineRange) (member : range ∈ ranges) (line : Line)
    (leader : line ∈ marks.leaders) : range.contains line = true ↔ range.first = line := by
  obtain ⟨order, _, inside, _⟩ := placed_bounds program marks describes ranges placed range member
  rw [LineRange.contains_iff]
  constructor
  · intro bounds
    by_contra different
    exact inside line (by lia) bounds.2 leader
  · intro same
    subst same
    exact ⟨Nat.le_refl _, order⟩

theorem same_first (ranges : List LineRange) (distinct : (ranges.map LineRange.first).Nodup)
    (i j : Nat) (a b : LineRange) (left : ranges[i]? = some a) (right : ranges[j]? = some b)
    (same : a.first = b.first) : i = j := by
  have leftFirst : (ranges.map LineRange.first)[i]? = some a.first := by simp [left]
  have rightFirst : (ranges.map LineRange.first)[j]? = some a.first := by simp [right, same]
  have bound : i < (ranges.map LineRange.first).length := (List.getElem?_eq_some_iff.mp leftFirst).1
  exact (List.getElem?_inj bound distinct).mp (leftFirst.trans rightFirst.symm)

theorem placed_disjoint (program : Program) (marks : Landmarks)
    (describes : Landmarks.Describes program marks) (ranges : List LineRange)
    (placed : Placed program marks ranges) (i j : Nat) (a b : LineRange) (left : ranges[i]? = some a)
    (right : ranges[j]? = some b) (line : Line) (inLeft : a.contains line = true)
    (inRight : b.contains line = true) : i = j := by
  have leftMember := List.mem_of_getElem? left
  have rightMember := List.mem_of_getElem? right
  obtain ⟨_, _, insideLeft, _⟩ := placed_bounds program marks describes ranges placed a leftMember
  obtain ⟨_, _, insideRight, _⟩ := placed_bounds program marks describes ranges placed b rightMember
  rw [LineRange.contains_iff] at inLeft inRight
  apply same_first ranges placed.distinct i j a b left right
  by_contra different
  rcases Nat.lt_or_gt_of_ne different with less | greater
  · exact insideLeft b.first less (by lia) (placed.leader b rightMember)
  · exact insideRight a.first greater (by lia) (placed.leader a leftMember)

theorem block_containing_iff (program : Program) (marks : Landmarks)
    (describes : Landmarks.Describes program marks) (blocks : List Block)
    (placed : Placed program marks (blocks.map Block.lines)) (line : Line) (id : BlockId) :
    blockContaining? blocks line = some id ↔
      ∃ block, blocks[id]? = some block ∧ block.lines.contains line = true := by
  have spec : ∀ found, blockContaining? blocks line = some found →
      ∃ block, blocks[found]? = some block ∧ block.lines.contains line = true := by
    intro found equal
    obtain ⟨bound, contains, _⟩ := List.findIdx?_eq_some_iff_getElem.mp equal
    exact ⟨blocks[found], List.getElem?_eq_getElem bound, contains⟩
  refine ⟨spec id, ?_⟩
  intro present
  obtain ⟨block, found, contains⟩ := present
  cases search : blockContaining? blocks line with
  | none =>
      have absent := List.findIdx?_eq_none_iff.mp search block (List.mem_of_getElem? found)
      simp [contains] at absent
  | some other =>
      obtain ⟨otherBlock, otherFound, otherContains⟩ := spec other search
      rw [placed_disjoint program marks describes _ placed other id otherBlock.lines block.lines
        (by simp [otherFound]) (by simp [found]) line otherContains contains]

theorem placed_append (program : Program) (marks : Landmarks) (ranges : List LineRange)
    (placed : Placed program marks ranges) (start : Line) (leader : start ∈ marks.leaders)
    (fresh : ∀ range ∈ ranges, range.first ≠ start) :
    Placed program marks (ranges ++ [⟨start, marks.lastLine program.size start⟩]) := by
  refine ⟨?_, ?_, ?_⟩
  · intro range member
    rcases List.mem_append.mp member with old | new
    · exact placed.leader range old
    · rw [List.mem_singleton.mp new]
      exact leader
  · intro range member
    rcases List.mem_append.mp member with old | new
    · exact placed.last range old
    · rw [List.mem_singleton.mp new]
  · rw [List.map_append, List.nodup_append]
    refine ⟨placed.distinct, by simp, ?_⟩
    intro first member other last
    obtain ⟨range, old, rfl⟩ := List.mem_map.mp member
    rw [List.map_singleton, List.mem_singleton] at last
    rw [last]
    exact fresh range old

theorem placed_length (program : Program) (marks : Landmarks)
    (describes : Landmarks.Describes program marks) (ranges : List LineRange)
    (placed : Placed program marks ranges) : ranges.length ≤ program.size := by
  -- Blocks have different first lines, and there are no more of those than lines.
  have inside : ranges.map LineRange.first ⊆ List.range program.size := by
    intro first member
    obtain ⟨range, old, rfl⟩ := List.mem_map.mp member
    exact List.mem_range.mpr (Landmarks.leader_lt_size program range.first
      ((describes.leaders range.first).mp (placed.leader range old)))
  have bound := (List.subperm_of_subset placed.distinct inside).length_le
  simpa using bound

end FlowGraph

end ThreeAddress
