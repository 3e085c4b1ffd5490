import Mathlib.Logic.Relation
import ThreeAddress.Proofs.Flow.Paths

set_option autoImplicit false

namespace ThreeAddress

namespace ControlFlow

def Leads (flow : ControlFlow) : BlockId → BlockId → Prop :=
  Relation.ReflTransGen fun source target =>
    target ∈ (flow.successors source).toList ∧ target < flow.blockCount

def Descending (flow : ControlFlow) : List BlockId → Prop
  | [] => True
  | block :: later =>
    (∀ child ∈ (flow.successors block).toList, child < flow.blockCount →
      child ∈ later ∨ flow.Leads child block) ∧ flow.Descending later

def Search.Pending (search : Search) (block : BlockId) : Prop :=
  block ∈ search.entered ∧ block ∉ search.finished

structure Search.Sound (search : Search) (flow : ControlFlow) : Prop where
  found : ∀ block ∈ search.entered, flow.Found block
  entered : ∀ block ∈ search.finished, block ∈ search.entered
  distinct : search.finished.Nodup
  descending : flow.Descending search.finished

/-- Control comes to the block in question, from the blocks that are still pending. -/
def Approaches (flow : ControlFlow) (search : Search) (block : BlockId) : Prop :=
  block < flow.blockCount →
    flow.Found block ∧ ∀ other, search.Pending other → flow.Leads other block

def Maintains (flow : ControlFlow) (before after : Search) : Prop :=
  after.Sound flow ∧ ∀ block, after.Pending block ↔ before.Pending block

theorem fold_maintains (flow : ControlFlow) (depth : Nat)
    (one : ∀ search block, flow.room search.entered ≤ depth → search.Sound flow →
      flow.Approaches search block → flow.Maintains search (flow.explore depth search block))
    (blocks : List BlockId) (search : Search) (enough : flow.room search.entered ≤ depth)
    (sound : search.Sound flow) (approaches : ∀ block ∈ blocks, flow.Approaches search block) :
    flow.Maintains search (blocks.foldl (flow.explore depth) search) := by
  induction blocks generalizing search with
  | nil => exact ⟨sound, fun _ => Iff.rfl⟩
  | cons block rest ih =>
      obtain ⟨soundNext, pending⟩ := one search block enough sound (approaches block List.mem_cons_self)
      obtain ⟨left, explored, _⟩ := flow.explore_explored depth search block enough
      obtain ⟨soundLast, pendingLast⟩ := ih (flow.explore depth search block)
        (Nat.le_trans (flow.explored_room _ _ left explored) enough) soundNext (by
          intro other member bound
          obtain ⟨found, leads⟩ := approaches other (List.mem_cons_of_mem block member) bound
          exact ⟨found, fun waiting held => leads waiting ((pending waiting).mp held)⟩)
      exact ⟨soundLast, fun other => (pendingLast other).trans (pending other)⟩

section Enter

variable (flow : ControlFlow) (search : Search) (block : BlockId) (bound : block < flow.blockCount)
  (fresh : block ∉ search.entered) (sound : search.Sound flow)

include fresh sound

theorem pending_enter (other : BlockId) :
    Search.Pending { search with entered := block :: search.entered } other ↔
      other = block ∨ search.Pending other := by
  have notLeft : block ∉ search.finished := fun member => fresh (sound.entered block member)
  simp only [Search.Pending, List.mem_cons]
  constructor
  · rintro ⟨rfl | entered, unfinished⟩
    · exact Or.inl rfl
    · exact Or.inr ⟨entered, unfinished⟩
  · rintro (rfl | ⟨entered, unfinished⟩)
    · exact ⟨Or.inl rfl, notLeft⟩
    · exact ⟨Or.inr entered, unfinished⟩

include bound

theorem enter_sound (approaches : flow.Approaches search block) :
    Search.Sound { search with entered := block :: search.entered } flow := by
  refine ⟨?_, ?_, sound.distinct, sound.descending⟩
  · intro other member
    rcases List.mem_cons.mp member with rfl | old
    · exact (approaches bound).1
    · exact sound.found other old
  · intro other member
    exact List.mem_cons_of_mem block (sound.entered other member)

theorem enter_approaches (approaches : flow.Approaches search block) (child : BlockId)
    (edge : child ∈ (flow.successors block).toList) :
    flow.Approaches { search with entered := block :: search.entered } child := by
  intro boundChild
  obtain ⟨found, leads⟩ := approaches bound
  refine ⟨.child block child found edge boundChild, ?_⟩
  intro other pending
  rcases (flow.pending_enter search block fresh sound other).mp pending with rfl | old
  · exact .single ⟨edge, boundChild⟩
  · exact (leads other old).tail ⟨edge, boundChild⟩

theorem leave_maintains (approaches : flow.Approaches search block) (inner : Search)
    (maintains : flow.Maintains { search with entered := block :: search.entered } inner)
    (children : ∀ child ∈ (flow.successors block).toList, child < flow.blockCount → child ∈ inner.entered) :
    flow.Maintains search { inner with finished := block :: inner.finished } := by
  -- When a block is left, its successors were left before it, or are pending and lead to it.
  obtain ⟨soundInner, pendingInner⟩ := maintains
  have pending : ∀ other, inner.Pending other ↔ other = block ∨ search.Pending other := fun other =>
    (pendingInner other).trans (flow.pending_enter search block fresh sound other)
  have own : inner.Pending block := (pending block).mpr (Or.inl rfl)
  refine ⟨⟨soundInner.found, ?_, List.nodup_cons.mpr ⟨own.2, soundInner.distinct⟩, ?_, soundInner.descending⟩, ?_⟩
  · intro other member
    rcases List.mem_cons.mp member with rfl | old
    · exact own.1
    · exact soundInner.entered other old
  · intro child edge boundChild
    by_cases finished : child ∈ inner.finished
    · exact Or.inl finished
    · rcases (pending child).mp ⟨children child edge boundChild, finished⟩ with rfl | old
      · exact Or.inr .refl
      · exact Or.inr ((approaches bound).2 child old)
  · intro other
    have split : Search.Pending { inner with finished := block :: inner.finished } other ↔
        other ≠ block ∧ inner.Pending other := by
      simp only [Search.Pending, List.mem_cons, not_or]
      tauto
    rw [split, pending]
    constructor
    · rintro ⟨different, same | old⟩
      · exact absurd same different
      · exact old
    · intro old
      exact ⟨fun same => fresh (same ▸ old.1), Or.inr old⟩

end Enter

theorem explore_maintains (flow : ControlFlow) (depth : Nat) (search : Search) (block : BlockId)
    (enough : flow.room search.entered ≤ depth) (sound : search.Sound flow)
    (approaches : flow.Approaches search block) :
    flow.Maintains search (flow.explore depth search block) := by
  induction depth generalizing search block with
  | zero => exact ⟨sound, fun _ => Iff.rfl⟩
  | succ depth ih =>
      rw [explore]
      by_cases enters : block < flow.blockCount ∧ block ∉ search.entered
      · obtain ⟨bound, fresh⟩ := enters
        have less := flow.room_enter search.entered block bound fresh
        have room : flow.room (block :: search.entered) ≤ depth := by lia
        obtain ⟨_, _, children⟩ := flow.fold_explored depth (flow.explore_explored depth)
          (flow.successors block).toList { search with entered := block :: search.entered } room
        rw [if_pos ⟨bound, fresh⟩]
        apply flow.leave_maintains search block bound fresh sound approaches _ _ children
        exact flow.fold_maintains depth ih _ _ room (flow.enter_sound search block bound fresh sound approaches)
          (flow.enter_approaches search block bound fresh sound approaches)
      · rw [if_neg enters]
        exact ⟨sound, fun _ => Iff.rfl⟩

theorem explore_skip (flow : ControlFlow) (depth : Nat) (search : Search) (block : BlockId)
    (skips : ¬ (block < flow.blockCount ∧ block ∉ search.entered)) : flow.explore depth search block = search := by
  cases depth with
  | zero => rfl
  | succ depth => rw [explore, if_neg skips]

theorem fold_agrees (flow : ControlFlow) (depth : Nat) (other : Search → BlockId → Search)
    (one : ∀ search block, flow.room search.entered ≤ depth → other search block = flow.explore depth search block)
    (blocks : List BlockId) (search : Search) (enough : flow.room search.entered ≤ depth) :
    blocks.foldl other search = blocks.foldl (flow.explore depth) search := by
  induction blocks generalizing search with
  | nil => rfl
  | cons block rest ih =>
      obtain ⟨left, explored, _⟩ := flow.explore_explored depth search block enough
      rw [List.foldl_cons, List.foldl_cons, one search block enough]
      exact ih _ (Nat.le_trans (flow.explored_room _ _ left explored) enough)

theorem explore_deeper (flow : ControlFlow) (depth deeper : Nat) (more : depth ≤ deeper)
    (search : Search) (block : BlockId) (enough : flow.room search.entered ≤ depth) :
    flow.explore deeper search block = flow.explore depth search block := by
  induction depth generalizing deeper search block with
  | zero =>
      apply flow.explore_skip deeper search block
      rintro ⟨bound, fresh⟩
      have less := flow.room_enter search.entered block bound fresh
      lia
  | succ depth ih =>
      obtain ⟨deeper, rfl⟩ := Nat.exists_eq_succ_of_ne_zero (Nat.ne_of_gt (Nat.lt_of_lt_of_le depth.succ_pos more))
      rw [explore, explore]
      by_cases enters : block < flow.blockCount ∧ block ∉ search.entered
      · have less := flow.room_enter search.entered block enters.1 enters.2
        rw [if_pos enters, if_pos enters, flow.fold_agrees depth (flow.explore deeper)
          (fun search block enough => ih deeper (Nat.le_of_succ_le_succ more) search block enough) _ _
          (by simp only; lia)]
      · rw [if_neg enters, if_neg enters]

section Stack

variable (flow : ControlFlow)

def Search.enter (search : Search) (block : BlockId) : Search :=
  { search with entered := block :: search.entered }

def Search.leave (search : Search) (block : BlockId) : Search :=
  { search with finished := block :: search.finished }

def work : List (BlockId × List BlockId) → Nat
  | [] => 0
  | (_, rest) :: frames => rest.length + 1 + work frames

theorem work_leave (block : BlockId) (frames : List (BlockId × List BlockId)) :
    work frames < work ((block, []) :: frames) := by
  simp only [work, List.length_nil]
  lia

theorem work_skip (block next : BlockId) (rest : List BlockId) (frames : List (BlockId × List BlockId)) :
    work ((block, rest) :: frames) < work ((block, next :: rest) :: frames) := by
  simp only [work, List.length_cons]
  lia

/-- The search as a loop. On the stack are the blocks that were entered and not yet left, the last
one first, each with the successors that are still to be tried. -/
def drain (search : Search) (stack : List (BlockId × List BlockId)) : Search :=
  match stack with
  | [] => search
  | (block, []) :: frames => drain (search.leave block) frames
  | (block, next :: rest) :: frames =>
    if _enters : next < flow.blockCount ∧ next ∉ search.entered then
      drain (search.enter next) ((next, (flow.successors next).toList) :: (block, rest) :: frames)
    else drain search ((block, rest) :: frames)
termination_by (flow.room search.entered, work stack)
decreasing_by
  · exact .right _ (work_leave block frames)
  · exact .left _ _ (flow.room_enter search.entered next _enters.1 _enters.2)
  · exact .right _ (work_skip block next rest frames)

def drainFrom (search : Search) (root : BlockId) : Search :=
  if root < flow.blockCount ∧ root ∉ search.entered then
    flow.drain (search.enter root) [(root, (flow.successors root).toList)]
  else search

def stackOrder : List BlockId := (flow.roots.foldl flow.drainFrom ⟨[], []⟩).finished

variable (search : Search) (block next : BlockId) (rest : List BlockId) (frames : List (BlockId × List BlockId))

theorem drain_leave : flow.drain search ((block, []) :: frames) = flow.drain (search.leave block) frames := by
  rw [drain]

theorem drain_enter (enters : next < flow.blockCount ∧ next ∉ search.entered) :
    flow.drain search ((block, next :: rest) :: frames) =
      flow.drain (search.enter next) ((next, (flow.successors next).toList) :: (block, rest) :: frames) := by
  rw [drain, dif_pos enters]

theorem drain_skip (skips : ¬ (next < flow.blockCount ∧ next ∉ search.entered)) :
    flow.drain search ((block, next :: rest) :: frames) = flow.drain search ((block, rest) :: frames) := by
  rw [drain, dif_neg skips]

theorem drain_top (depth : Nat)
    (one : ∀ search next frames, flow.room search.entered ≤ depth → next < flow.blockCount ∧ next ∉ search.entered →
      flow.drain (search.enter next) ((next, (flow.successors next).toList) :: frames) =
        flow.drain (flow.explore depth search next) frames)
    (enough : flow.room search.entered ≤ depth) :
    flow.drain search ((block, rest) :: frames) =
      flow.drain ((rest.foldl (flow.explore depth) search).leave block) frames := by
  induction rest generalizing search with
  | nil => exact flow.drain_leave search block frames
  | cons next rest ih =>
      rw [List.foldl_cons]
      by_cases enters : next < flow.blockCount ∧ next ∉ search.entered
      · obtain ⟨left, explored, _⟩ := flow.explore_explored depth search next enough
        rw [flow.drain_enter search block next rest frames enters, one search next _ enough enters]
        exact ih _ (Nat.le_trans (flow.explored_room _ _ left explored) enough)
      · rw [flow.drain_skip search block next rest frames enters, flow.explore_skip depth search next enters]
        exact ih search enough

theorem drain_explore (depth : Nat) (enough : flow.room search.entered ≤ depth)
    (enters : next < flow.blockCount ∧ next ∉ search.entered) :
    flow.drain (search.enter next) ((next, (flow.successors next).toList) :: frames) =
      flow.drain (flow.explore depth search next) frames := by
  have less := flow.room_enter search.entered next enters.1 enters.2
  induction depth generalizing search next frames with
  | zero => lia
  | succ depth ih =>
      rw [explore, if_pos enters]
      apply flow.drain_top (search.enter next) next _ frames depth
      · intro inner child frames room fresh
        exact ih inner child frames room fresh (flow.room_enter inner.entered child fresh.1 fresh.2)
      · simp only [Search.enter]
        lia

theorem drain_from_explore (depth : Nat) (enough : flow.room search.entered ≤ depth) :
    flow.drainFrom search block = flow.explore depth search block := by
  unfold drainFrom
  by_cases enters : block < flow.blockCount ∧ block ∉ search.entered
  · rw [if_pos enters, flow.drain_explore search block [] depth enough enters, drain]
  · rw [if_neg enters, flow.explore_skip depth search block enters]

end Stack

theorem descending_sorted (flow : ControlFlow) (order : List BlockId) (descending : flow.Descending order)
    (source target : BlockId) (listed : source ∈ order) (edge : target ∈ (flow.successors source).toList)
    (bound : target < flow.blockCount) (forward : ¬ flow.Leads target source) :
    [source, target].Sublist order := by
  induction order with
  | nil => cases listed
  | cons block later ih =>
      obtain ⟨children, rest⟩ := descending
      rcases List.mem_cons.mp listed with rfl | behind
      · have follows := (children target edge bound).resolve_right forward
        exact (List.singleton_sublist.mpr follows).cons_cons source
      · exact (ih rest behind).cons block

structure Topological (flow : ControlFlow) (order : List BlockId) : Prop where
  distinct : order.Nodup
  listed : ∀ block, block ∈ order ↔ flow.Found block
  sorted : ∀ source ∈ order, ∀ target ∈ order, target ∈ (flow.successors source).toList →
    ¬ flow.Leads target source → [source, target].Sublist order

theorem order_sound (flow : ControlFlow) :
    (flow.roots.foldl (flow.explore flow.blockCount) ⟨[], []⟩).Sound flow := by
  have start : Search.Sound ⟨[], []⟩ flow := ⟨by simp, by simp, List.nodup_nil, trivial⟩
  have maintains := flow.fold_maintains flow.blockCount (flow.explore_maintains flow.blockCount) flow.roots
    ⟨[], []⟩ flow.room_start start (by
      intro root member bound
      exact ⟨.root root member bound, fun _ pending => absurd pending.1 List.not_mem_nil⟩)
  exact maintains.1

theorem order_topological (flow : ControlFlow) : flow.Topological flow.reversePostOrder := by
  have sound := flow.order_sound
  refine ⟨sound.distinct, ?_, ?_⟩
  · intro block
    constructor
    · exact fun listed => sound.found block (sound.entered block listed)
    · exact flow.mem_order block
  · intro source listed target other edge forward
    exact flow.descending_sorted _ sound.descending source target listed edge
      (flow.order_explored.1 target other) forward

theorem order_deeper (flow : ControlFlow) (depth : Nat) (enough : flow.blockCount ≤ depth) :
    (flow.roots.foldl (flow.explore depth) ⟨[], []⟩).finished = flow.reversePostOrder := by
  rw [reversePostOrder, flow.fold_agrees flow.blockCount (flow.explore depth)
    (flow.explore_deeper flow.blockCount depth enough) flow.roots ⟨[], []⟩ flow.room_start]

theorem stack_order (flow : ControlFlow) : flow.stackOrder = flow.reversePostOrder := by
  rw [stackOrder, reversePostOrder, flow.fold_agrees flow.blockCount flow.drainFrom
    (fun search block => flow.drain_from_explore search block flow.blockCount) flow.roots ⟨[], []⟩ flow.room_start]

end ControlFlow

namespace FlowGraph

theorem order_permutes {program : Program} {start : Line} {graph : FlowGraph}
    (complete : Complete program start graph) :
    graph.reversePostOrder.Perm (List.range graph.blocks.length) := by
  apply (List.perm_ext_iff_of_nodup graph.controlFlow.order_topological.distinct List.nodup_range).mpr
  intro id
  rw [List.mem_range]
  constructor
  · exact graph.controlFlow.order_explored.1 id
  · exact mem_reverse_post_order complete id

theorem reverse_post_order_topological :
    (∀ flow : ControlFlow, flow.Topological flow.reversePostOrder ∧ flow.stackOrder = flow.reversePostOrder ∧
      ∀ depth, flow.blockCount ≤ depth →
        (flow.roots.foldl (flow.explore depth) ⟨[], []⟩).finished = flow.reversePostOrder) ∧
    ∀ (program : Program) (table : SymbolTable) (name : String) (graph : FlowGraph),
      build program table name = .ok graph →
        graph.reversePostOrder.Perm (List.range graph.blocks.length) := by
  refine ⟨fun flow => ⟨flow.order_topological, flow.stack_order, flow.order_deeper⟩, ?_⟩
  intro program table name graph built
  obtain ⟨_, _, _, _, complete⟩ := build_complete program table name graph built
  exact order_permutes complete

def tangle : ControlFlow where
  blockCount := 6
  roots := [9, 2, 0]
  successors
    | 0 => .branching 2 1
    | 1 => .continuous 1
    | 2 => .branching 3 7
    | 3 => .branching 2 4
    | 5 => .continuous 0
    | _ => .terminated
  lines id := ⟨id, id⟩

theorem tangle_topological : tangle.reversePostOrder = [0, 1, 2, 3, 4] ∧
    tangle.Topological [0, 1, 2, 3, 4] ∧ ∃ graph, build roundabout roundaboutTable "main" = .ok graph ∧
      graph.reversePostOrder.Perm (List.range graph.blocks.length) := by
  have order : tangle.reversePostOrder = [0, 1, 2, 3, 4] := by decide
  obtain ⟨graph, built⟩ := roundabout_builds
  refine ⟨order, order ▸ (reverse_post_order_topological.1 tangle).1, graph, built, ?_⟩
  exact reverse_post_order_topological.2 roundabout roundaboutTable "main" graph built

end FlowGraph

end ThreeAddress
