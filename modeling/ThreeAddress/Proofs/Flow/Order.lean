import Mathlib.Data.Finset.Card
import Mathlib.Data.Finset.Range
import Mathlib.Data.Finset.SDiff
import ThreeAddress.Flow.ControlFlow

set_option autoImplicit false

namespace ThreeAddress

namespace ControlFlow

inductive Found (flow : ControlFlow) : BlockId → Prop where
  | root (id : BlockId) (member : id ∈ flow.roots) (bound : id < flow.blockCount) : Found flow id
  | child (parent id : BlockId) (before : Found flow parent)
      (edge : id ∈ (flow.successors parent).toList) (bound : id < flow.blockCount) : Found flow id

/-- How many blocks were not entered yet. A search at this depth cannot run out of levels. -/
def room (flow : ControlFlow) (entered : List BlockId) : Nat :=
  (Finset.range flow.blockCount \ entered.toFinset).card

theorem room_start (flow : ControlFlow) : flow.room [] ≤ flow.blockCount := by
  simp [room]

theorem room_mono (flow : ControlFlow) (less more : List BlockId) (subset : less ⊆ more) :
    flow.room more ≤ flow.room less := by
  apply Finset.card_le_card
  apply Finset.sdiff_subset_sdiff (Finset.Subset.refl _)
  intro block member
  rw [List.mem_toFinset] at member ⊢
  exact subset member

theorem room_enter (flow : ControlFlow) (entered : List BlockId) (block : BlockId)
    (bound : block < flow.blockCount) (fresh : block ∉ entered) :
    flow.room (block :: entered) < flow.room entered := by
  apply Finset.card_lt_card
  rw [Finset.ssubset_iff_of_subset]
  · exact ⟨block, by simp [bound, fresh], by simp⟩
  · apply Finset.sdiff_subset_sdiff (Finset.Subset.refl _)
    intro other member
    rw [List.mem_toFinset] at member ⊢
    exact List.mem_cons_of_mem block member

/-- What a search adds: the blocks it enters are those it leaves, and with a block it also enters
the block's successors. -/
structure Explored (flow : ControlFlow) (before after : Search) (left : List BlockId) : Prop where
  finished : after.finished = left ++ before.finished
  entered : ∀ block, block ∈ after.entered ↔ block ∈ before.entered ∨ block ∈ left
  bounded : ∀ block ∈ left, block < flow.blockCount
  closed : ∀ block ∈ left, ∀ child ∈ (flow.successors block).toList, child < flow.blockCount →
    child ∈ after.entered

theorem explored_refl (flow : ControlFlow) (search : Search) : flow.Explored search search [] :=
  ⟨by simp, by simp, by simp, by simp⟩

theorem explored_trans (flow : ControlFlow) (first second third : Search) (left more : List BlockId)
    (earlier : flow.Explored first second left) (later : flow.Explored second third more) :
    flow.Explored first third (more ++ left) := by
  refine ⟨?_, ?_, ?_, ?_⟩
  · rw [later.finished, earlier.finished, List.append_assoc]
  · intro block
    rw [later.entered, earlier.entered, List.mem_append, or_assoc, or_comm (a := block ∈ more)]
  · intro block member
    rcases List.mem_append.mp member with new | old
    · exact later.bounded block new
    · exact earlier.bounded block old
  · intro block member child edge bound
    rcases List.mem_append.mp member with new | old
    · exact later.closed block new child edge bound
    · exact (later.entered child).mpr (Or.inl (earlier.closed block old child edge bound))

theorem explored_room (flow : ControlFlow) (before after : Search) (left : List BlockId)
    (explored : flow.Explored before after left) : flow.room after.entered ≤ flow.room before.entered :=
  flow.room_mono before.entered after.entered fun block member =>
    (explored.entered block).mpr (Or.inl member)

theorem fold_explored (flow : ControlFlow) (depth : Nat)
    (one : ∀ search block, flow.room search.entered ≤ depth →
      ∃ left, flow.Explored search (flow.explore depth search block) left ∧
        (block < flow.blockCount → block ∈ (flow.explore depth search block).entered))
    (blocks : List BlockId) (search : Search) (enough : flow.room search.entered ≤ depth) :
    ∃ left, flow.Explored search (blocks.foldl (flow.explore depth) search) left ∧
      ∀ block ∈ blocks, block < flow.blockCount →
        block ∈ (blocks.foldl (flow.explore depth) search).entered := by
  induction blocks generalizing search with
  | nil => exact ⟨[], flow.explored_refl search, by simp⟩
  | cons block rest ih =>
      obtain ⟨left, explored, present⟩ := one search block enough
      obtain ⟨more, exploredRest, presentRest⟩ := ih (flow.explore depth search block)
        (Nat.le_trans (flow.explored_room _ _ left explored) enough)
      refine ⟨more ++ left, flow.explored_trans _ _ _ left more explored exploredRest, ?_⟩
      intro other member bound
      rcases List.mem_cons.mp member with rfl | later
      · exact (exploredRest.entered other).mpr (Or.inl (present bound))
      · exact presentRest other later bound

theorem explore_explored (flow : ControlFlow) (depth : Nat) (search : Search) (block : BlockId)
    (enough : flow.room search.entered ≤ depth) :
    ∃ left, flow.Explored search (flow.explore depth search block) left ∧
      (block < flow.blockCount → block ∈ (flow.explore depth search block).entered) := by
  induction depth generalizing search block with
  | zero =>
      refine ⟨[], flow.explored_refl search, ?_⟩
      intro bound
      by_contra fresh
      have less := flow.room_enter search.entered block bound fresh
      lia
  | succ depth ih =>
      rw [explore]
      by_cases enters : block < flow.blockCount ∧ block ∉ search.entered
      · have less := flow.room_enter search.entered block enters.1 enters.2
        obtain ⟨left, inner, children⟩ := flow.fold_explored depth ih (flow.successors block).toList
          { search with entered := block :: search.entered } (by simp only; lia)
        rw [if_pos enters]
        refine ⟨block :: left, ⟨?_, ?_, ?_, ?_⟩, ?_⟩
        · simp [inner.finished]
        · intro other
          rw [inner.entered, List.mem_cons, List.mem_cons, or_assoc]
          exact or_left_comm
        · intro other member
          rcases List.mem_cons.mp member with rfl | deeper
          · exact enters.1
          · exact inner.bounded other deeper
        · intro other member child edge bound
          rcases List.mem_cons.mp member with rfl | deeper
          · exact children child edge bound
          · exact inner.closed other deeper child edge bound
        · intro _
          exact (inner.entered block).mpr (Or.inl List.mem_cons_self)
      · rw [if_neg enters]
        refine ⟨[], flow.explored_refl search, ?_⟩
        intro bound
        by_contra fresh
        exact enters ⟨bound, fresh⟩

theorem order_explored (flow : ControlFlow) :
    (∀ block ∈ flow.reversePostOrder, block < flow.blockCount) ∧
    (∀ root ∈ flow.roots, root < flow.blockCount → root ∈ flow.reversePostOrder) ∧
    ∀ block ∈ flow.reversePostOrder, ∀ child ∈ (flow.successors block).toList,
      child < flow.blockCount → child ∈ flow.reversePostOrder := by
  obtain ⟨left, explored, roots⟩ := flow.fold_explored flow.blockCount
    (flow.explore_explored flow.blockCount) flow.roots ⟨[], []⟩ flow.room_start
  have order : flow.reversePostOrder = left := by
    simpa [reversePostOrder] using explored.finished
  have entered : ∀ block, block ∈ (flow.roots.foldl (flow.explore flow.blockCount) ⟨[], []⟩).entered ↔
      block ∈ left := by
    intro block
    rw [explored.entered]
    simp
  rw [order]
  refine ⟨explored.bounded, ?_, ?_⟩
  · intro root member bound
    exact (entered root).mp (roots root member bound)
  · intro block member child edge bound
    exact (entered child).mp (explored.closed block member child edge bound)

theorem mem_order (flow : ControlFlow) (block : BlockId) (found : flow.Found block) :
    block ∈ flow.reversePostOrder := by
  induction found with
  | root id member bound => exact flow.order_explored.2.1 id member bound
  | child parent id _ edge bound ih => exact flow.order_explored.2.2 parent ih id edge bound

end ControlFlow

end ThreeAddress
