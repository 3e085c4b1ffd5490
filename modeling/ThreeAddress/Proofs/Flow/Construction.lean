import Mathlib.Data.List.Nodup
import ThreeAddress.Proofs.Flow.Placement

set_option autoImplicit false

namespace ThreeAddress

namespace FlowGraph

def startOf? (blocks : List Block) (id : BlockId) : Option Line :=
  blocks[id]?.map fun block => block.lines.first

theorem start_of_lt (blocks : List Block) (id : BlockId) (line : Line)
    (start : startOf? blocks id = some line) : id < blocks.length := by
  obtain ⟨block, found, _⟩ := Option.map_eq_some_iff.mp start
  exact (List.getElem?_eq_some_iff.mp found).1

theorem start_of_append (blocks fresh : List Block) (id : BlockId) (line : Line)
    (start : startOf? blocks id = some line) : startOf? (blocks ++ fresh) id = some line := by
  have bound := start_of_lt blocks id line start
  rw [startOf?, List.getElem?_append_left bound]
  exact start

namespace Construction

/-- What building the blocks that start at some lines does: fresh blocks come last, and on top of
the stack. -/
structure Grows (program : Program) (marks : Landmarks) (starts : List Line)
    (before after : Construction) (fresh : List Block) : Prop where
  blocks : after.blocks = before.blocks ++ fresh
  pending : after.pending =
    (List.range' before.blocks.length fresh.length).reverse ++ before.pending
  roots : after.roots = before.roots
  starts : ∀ block ∈ fresh, block.lines.first ∈ starts
  unlinked : ∀ block ∈ fresh, block.next = .terminated ∧ block.parents = []
  placed : Placed program marks (after.blocks.map Block.lines)

theorem grows_refl (program : Program) (marks : Landmarks) (starts : List Line) (state : Construction)
    (placed : Placed program marks (state.blocks.map Block.lines)) :
    Grows program marks starts state state [] := by
  refine ⟨?_, ?_, rfl, ?_, ?_, placed⟩
  · simp
  · simp
  · simp
  · simp

theorem grows_trans (program : Program) (marks : Landmarks) (left right : List Line)
    (first second third : Construction) (fresh more : List Block)
    (earlier : Grows program marks left first second fresh)
    (later : Grows program marks right second third more) :
    Grows program marks (left ++ right) first third (fresh ++ more) := by
  refine ⟨?_, ?_, later.roots.trans earlier.roots, ?_, ?_, later.placed⟩
  · rw [later.blocks, earlier.blocks, List.append_assoc]
  · rw [later.pending, earlier.pending, earlier.blocks, List.length_append, List.length_append,
      ← List.append_assoc, ← List.reverse_append, List.range'_append_1]
  · intro block member
    rcases List.mem_append.mp member with old | new
    · exact List.mem_append_left right (earlier.starts block old)
    · exact List.mem_append_right left (later.starts block new)
  · intro block member
    rcases List.mem_append.mp member with old | new
    · exact earlier.unlinked block old
    · exact later.unlinked block new

theorem block_at_grows (program : Program) (marks : Landmarks)
    (describes : Landmarks.Describes program marks) (state : Construction)
    (placed : Placed program marks (state.blocks.map Block.lines)) (start : Line)
    (leader : start ∈ marks.leaders) :
    ∃ fresh, Grows program marks [start] state (blockAt program marks start state).2 fresh ∧
      startOf? (blockAt program marks start state).2.blocks (blockAt program marks start state).1 =
        some start := by
  unfold blockAt
  cases search : blockContaining? state.blocks start with
  | some id =>
      obtain ⟨block, found, contains⟩ :=
        (block_containing_iff program marks describes state.blocks placed start id).mp search
      have member : block.lines ∈ state.blocks.map Block.lines :=
        List.mem_map.mpr ⟨block, List.mem_of_getElem? found, rfl⟩
      have first := (contains_leader program marks describes _ placed block.lines member start leader).mp
        contains
      exact ⟨[], grows_refl program marks [start] state placed, by simp [startOf?, found, first]⟩
  | none =>
      have apart : ∀ range ∈ state.blocks.map Block.lines, range.first ≠ start := by
        intro range member same
        obtain ⟨block, old, rfl⟩ := List.mem_map.mp member
        have absent := List.findIdx?_eq_none_iff.mp search block old
        have contains := (contains_leader program marks describes _ placed block.lines member start
          leader).mpr same
        simp [contains] at absent
      refine ⟨[.fresh ⟨start, marks.lastLine program.size start⟩], ?_, ?_⟩
      · refine ⟨rfl, by simp, rfl, by simp [Block.fresh], by simp [Block.fresh], ?_⟩
        rw [List.map_append]
        exact placed_append program marks _ placed start leader apart
      · simp [startOf?, Block.fresh]

theorem map_block_at_grows (program : Program) (marks : Landmarks)
    (describes : Landmarks.Describes program marks) (state : Construction)
    (placed : Placed program marks (state.blocks.map Block.lines)) (lines : Successors Line)
    (leaders : ∀ line ∈ lines.toList, line ∈ marks.leaders) :
    ∃ fresh, Grows program marks lines.toList state (lines.mapM (blockAt program marks) state).2 fresh ∧
      (lines.mapM (blockAt program marks) state).1.toList.map
        (startOf? (lines.mapM (blockAt program marks) state).2.blocks) = lines.toList.map some := by
  cases lines with
  | terminated => exact ⟨[], grows_refl program marks [] state placed, rfl⟩
  | continuous next =>
      obtain ⟨fresh, grows, start⟩ := block_at_grows program marks describes state placed next
        (leaders next (by simp [Successors.toList]))
      exact ⟨fresh, grows, congrArg (fun line => [line]) start⟩
  | branching fallthrough target =>
      obtain ⟨fresh, grows, start⟩ := block_at_grows program marks describes state placed fallthrough
        (leaders fallthrough (by simp [Successors.toList]))
      obtain ⟨more, growsMore, startMore⟩ := block_at_grows program marks describes _ grows.placed target
        (leaders target (by simp [Successors.toList]))
      refine ⟨fresh ++ more, grows_trans program marks _ _ _ _ _ _ _ grows growsMore, ?_⟩
      have kept := start_of_append _ more _ _ start
      rw [← growsMore.blocks] at kept
      exact congrArg₂ (fun first second => [first, second]) kept startMore

theorem parents_get (id : BlockId) (children : List BlockId) (blocks : List Block) (i : BlockId) :
    (children.foldl (fun blocks child => blocks.modify child (Block.addParent id)) blocks)[i]? =
      blocks[i]?.map fun block =>
        { block with parents := block.parents ++ List.replicate (children.count i) id } := by
  induction children generalizing blocks with
  | nil => simp
  | cons child rest ih =>
      rw [List.foldl_cons, ih, List.getElem?_modify]
      cases blocks[i]? with
      | none => rfl
      | some block =>
          by_cases same : child = i
          · simp [same, Block.addParent, List.replicate_succ]
          · simp [same]

def relink (id : BlockId) (next : Successors BlockId) (i : BlockId) (block : Block) : Block where
  lines := block.lines
  next := if i = id then next else block.next
  parents := block.parents ++ List.replicate (next.toList.count i) id

theorem link_get (state : Construction) (id : BlockId) (next : Successors BlockId) (i : BlockId) :
    (state.link id next).blocks[i]? = state.blocks[i]?.map (relink id next i) := by
  simp only [link, List.getElem?_modify, parents_get]
  cases state.blocks[i]? with
  | none => rfl
  | some block =>
      by_cases same : i = id
      · simp [same, relink]
      · simp [same, Ne.symm same, relink]

theorem link_lines (state : Construction) (id : BlockId) (next : Successors BlockId) :
    (state.link id next).blocks.map Block.lines = state.blocks.map Block.lines := by
  apply List.ext_getElem?
  intro i
  rw [List.getElem?_map, List.getElem?_map, link_get, Option.map_map]
  rfl

theorem link_length (state : Construction) (id : BlockId) (next : Successors BlockId) :
    (state.link id next).blocks.length = state.blocks.length := by
  have lengths := congrArg List.length (link_lines state id next)
  simpa using lengths

theorem link_start (state : Construction) (id : BlockId) (next : Successors BlockId) :
    startOf? (state.link id next).blocks = startOf? state.blocks := by
  funext i
  rw [startOf?, link_get, Option.map_map]
  rfl

theorem start_of_inj (program : Program) (marks : Landmarks) (blocks : List Block)
    (placed : Placed program marks (blocks.map Block.lines)) (i j : BlockId) (line : Line)
    (left : startOf? blocks i = some line) (right : startOf? blocks j = some line) : i = j := by
  obtain ⟨a, foundLeft, startLeft⟩ := Option.map_eq_some_iff.mp left
  obtain ⟨b, foundRight, startRight⟩ := Option.map_eq_some_iff.mp right
  exact same_first _ placed.distinct i j a.lines b.lines (by simp [foundLeft]) (by simp [foundRight])
    (startLeft.trans startRight.symm)

theorem add_root_grows (program : Program) (marks : Landmarks)
    (describes : Landmarks.Describes program marks) (state : Construction)
    (placed : Placed program marks (state.blocks.map Block.lines)) (start : Line)
    (leader : start ∈ marks.leaders) :
    ∃ built fresh root, Grows program marks [start] state built fresh ∧
      startOf? built.blocks root = some start ∧
      state.addRoot program marks start =
        { built with roots := if root ∈ state.roots then state.roots else state.roots ++ [root] } := by
  obtain ⟨fresh, grows, found⟩ := block_at_grows program marks describes state placed start leader
  rcases equal : blockAt program marks start state with ⟨root, built⟩
  rw [equal] at grows found
  refine ⟨built, fresh, root, grows, found, ?_⟩
  have roots : built.roots = state.roots := grows.roots
  simp only [addRoot, equal, ← roots]
  by_cases old : root ∈ built.roots
  · rw [if_pos old, if_pos old]
  · rw [if_neg old, if_neg old]

/-- Everything that linking a block does to a construction. -/
structure Processed (program : Program) (marks : Landmarks) (state after : Construction) (id : BlockId)
    (last : Line) (next : Successors BlockId) (fresh : List Block) : Prop where
  blocks : ∀ i, after.blocks[i]? = (state.blocks ++ fresh)[i]?.map (relink id next i)
  pending : after.pending =
    (List.range' state.blocks.length fresh.length).reverse ++ state.pending
  follow : ∃ lines, Follow program last lines ∧
    next.toList.map (startOf? after.blocks) = lines.toList.map some
  roots : ∃ more, after.roots = state.roots ++ more ∧
    ∀ root ∈ more, ∃ entry, program.Calls last entry ∧ startOf? after.blocks root = some entry
  rootsNodup : state.roots.Nodup → after.roots.Nodup
  called : ∀ entry, program.Calls last entry →
    ∃ root ∈ after.roots, startOf? after.blocks root = some entry
  unlinked : ∀ block ∈ fresh, block.next = .terminated ∧ block.parents = []
  reached : ∀ block ∈ fresh,
    program.Step last block.lines.first ∨ program.Calls last block.lines.first
  connected : ∀ i line, state.blocks.length ≤ i → startOf? after.blocks i = some line →
    i ∈ next.toList ∨ i ∈ after.roots
  placed : Placed program marks (after.blocks.map Block.lines)

theorem follow_leaders (program : Program) (marks : Landmarks)
    (describes : Landmarks.Describes program marks) (last : Line) (lines : Successors Line)
    (follow : Follow program last lines)
    (ends : last + 1 = program.size ∨ last + 1 ∈ marks.leaders) :
    ∀ line ∈ lines.toList, line ∈ marks.leaders := by
  intro line member
  rcases (follow.mem line).mp member with through | jumps
  · obtain ⟨⟨_, after, _, _, _, foundAfter, _⟩, rfl⟩ := through
    have bound := program.get_lt_size (last + 1) after foundAfter
    rcases ends with endOfProgram | leader
    · lia
    · exact leader
  · exact (describes.leaders line).mpr (program.jumps_to_leader last line jumps)

theorem starts_mono (blocks more : List Block) (ids : List BlockId) (lines : List Line)
    (starts : ids.map (startOf? blocks) = lines.map some)
    (keeps : ∀ i line, startOf? blocks i = some line → startOf? more i = some line) :
    ids.map (startOf? more) = lines.map some := by
  rw [← starts]
  apply List.map_congr_left
  intro child member
  have listed : startOf? blocks child ∈ lines.map some := by
    rw [← starts]
    exact List.mem_map_of_mem member
  obtain ⟨line, _, start⟩ := List.mem_map.mp listed
  rw [← start]
  exact keeps child line start.symm

theorem mem_of_start (program : Program) (marks : Landmarks) (blocks : List Block)
    (placed : Placed program marks (blocks.map Block.lines)) (ids : List BlockId) (lines : List Line)
    (starts : ids.map (startOf? blocks) = lines.map some) (i : BlockId) (line : Line)
    (member : line ∈ lines) (start : startOf? blocks i = some line) : i ∈ ids := by
  have listed : some line ∈ ids.map (startOf? blocks) := by
    rw [starts]
    exact List.mem_map_of_mem member
  obtain ⟨other, present, same⟩ := List.mem_map.mp listed
  rw [start_of_inj program marks blocks placed i other line start same]
  exact present

theorem relink_other (id : BlockId) (next : Successors BlockId) (i : BlockId) (block : Block)
    (different : i ≠ id) (childless : i ∉ next.toList) : relink id next i block = block := by
  simp [relink, different, List.count_eq_zero.mpr childless]

theorem child_lt (blocks : List Block) (ids : List BlockId) (lines : List Line)
    (starts : ids.map (startOf? blocks) = lines.map some) (child : BlockId) (member : child ∈ ids) :
    child < blocks.length := by
  have listed : startOf? blocks child ∈ lines.map some := by
    rw [← starts]
    exact List.mem_map_of_mem member
  obtain ⟨line, _, start⟩ := List.mem_map.mp listed
  exact start_of_lt blocks child line start.symm

theorem grown_child (program : Program) (marks : Landmarks) (lines : List Line) (state built : Construction)
    (fresh : List Block) (grows : Grows program marks lines state built fresh) (ids : List BlockId)
    (starts : ids.map (startOf? built.blocks) = lines.map some) (i : BlockId) (line : Line)
    (new : state.blocks.length ≤ i) (start : startOf? built.blocks i = some line) : i ∈ ids := by
  obtain ⟨block, found, rfl⟩ := Option.map_eq_some_iff.mp start
  rw [grows.blocks, List.getElem?_append_right new] at found
  exact mem_of_start program marks built.blocks grows.placed ids lines starts i block.lines.first
    (grows.starts block (List.mem_of_getElem? found)) start

theorem link_append (built : Construction) (id : BlockId) (next : Successors BlockId) (more : List Block)
    (known : id < built.blocks.length) (children : ∀ child ∈ next.toList, child < built.blocks.length)
    (i : BlockId) :
    ((built.link id next).blocks ++ more)[i]? = (built.blocks ++ more)[i]?.map (relink id next i) := by
  -- Blocks that are built after a block was linked are no successors of it.
  have linked : (built.link id next).blocks.length = built.blocks.length := link_length built id next
  by_cases old : i < built.blocks.length
  · rw [List.getElem?_append_left (by lia), List.getElem?_append_left old, link_get]
  · rw [List.getElem?_append_right (by lia), List.getElem?_append_right (by lia), linked]
    cases more[i - built.blocks.length]? with
    | none => rfl
    | some block =>
        have childless : i ∉ next.toList := fun member => old (children i member)
        simp [relink_other id next i block (by lia) childless]

theorem link_processed (program : Program) (marks : Landmarks) (state built : Construction)
    (id : BlockId) (last : Line) (lines : Successors Line) (next : Successors BlockId)
    (fresh : List Block) (follow : Follow program last lines)
    (grows : Grows program marks lines.toList state built fresh)
    (starts : next.toList.map (startOf? built.blocks) = lines.toList.map some)
    (callless : ∀ entry, ¬ program.Calls last entry) :
    Processed program marks state (built.link id next) id last next fresh := by
  refine ⟨?_, grows.pending, ⟨lines, follow, ?_⟩, ⟨[], ?_, by simp⟩, ?_, ?_, grows.unlinked, ?_, ?_, ?_⟩
  · intro i
    rw [link_get, grows.blocks]
  · rw [link_start]
    exact starts
  · rw [List.append_nil]
    exact grows.roots
  · intro nodup
    exact grows.roots ▸ nodup
  · intro entry calls
    exact absurd calls (callless entry)
  · intro block member
    exact Or.inl ((follow.mem block.lines.first).mp (grows.starts block member))
  · intro i line new start
    left
    rw [link_start] at start
    exact grown_child program marks lines.toList state built fresh grows next.toList starts i line new start
  · rw [link_lines]
    exact grows.placed

theorem root_processed (program : Program) (marks : Landmarks) (state built rooted : Construction)
    (id : BlockId) (last entry : Line) (lines : Successors Line) (next : Successors BlockId)
    (fresh more : List Block) (root : BlockId) (follow : Follow program last lines)
    (grows : Grows program marks lines.toList state built fresh)
    (starts : next.toList.map (startOf? built.blocks) = lines.toList.map some)
    (known : id < state.blocks.length) (calls : program.Calls last entry)
    (only : ∀ other, program.Calls last other → other = entry)
    (growsRoot : Grows program marks [entry] (built.link id next) rooted more)
    (rootStart : startOf? rooted.blocks root = some entry) :
    Processed program marks state
      { rooted with roots := if root ∈ state.roots then state.roots else state.roots ++ [root] }
      id last next (fresh ++ more) := by
  have size : built.blocks.length = state.blocks.length + fresh.length := by
    rw [grows.blocks, List.length_append]
  have linked : (built.link id next).blocks.length = built.blocks.length := link_length built id next
  have rootMember : root ∈ (if root ∈ state.roots then state.roots else state.roots ++ [root]) := by
    by_cases old : root ∈ state.roots
    · rw [if_pos old]
      exact old
    · rw [if_neg old]
      simp
  have moreStart : ∀ block ∈ more, block.lines.first = entry := fun block member =>
    List.mem_singleton.mp (growsRoot.starts block member)
  have keepStart : ∀ i line, startOf? built.blocks i = some line →
      startOf? rooted.blocks i = some line := by
    intro i line start
    rw [growsRoot.blocks]
    apply start_of_append
    rw [link_start]
    exact start
  have startsAfter := starts_mono built.blocks rooted.blocks next.toList lines.toList starts keepStart
  refine ⟨?_, ?_, ⟨lines, follow, startsAfter⟩, ?_, ?_, ?_, ?_, ?_, ?_, growsRoot.placed⟩
  · intro i
    change rooted.blocks[i]? = _
    rw [growsRoot.blocks, ← List.append_assoc, ← grows.blocks]
    exact link_append built id next more (by lia) (child_lt built.blocks next.toList lines.toList starts) i
  · change rooted.pending = _
    have stacked : (built.link id next).pending = built.pending := rfl
    rw [growsRoot.pending, stacked, grows.pending, linked, size, List.length_append,
      ← List.append_assoc, ← List.reverse_append, List.range'_append_1]
  · by_cases old : root ∈ state.roots
    · exact ⟨[], by simp [old], by simp⟩
    · refine ⟨[root], by simp [old], ?_⟩
      intro other member
      rw [List.mem_singleton.mp member]
      exact ⟨entry, calls, rootStart⟩
  · intro nodup
    by_cases old : root ∈ state.roots
    · simpa [old] using nodup
    · simpa [old] using nodup.append (List.nodup_singleton root) (by simpa using old)
  · intro other otherCalls
    rw [only other otherCalls]
    exact ⟨root, rootMember, rootStart⟩
  · intro block member
    rcases List.mem_append.mp member with old | new
    · exact grows.unlinked block old
    · exact growsRoot.unlinked block new
  · intro block member
    rcases List.mem_append.mp member with old | new
    · exact Or.inl ((follow.mem block.lines.first).mp (grows.starts block old))
    · exact Or.inr ((moreStart block new).symm ▸ calls)
  · intro i line new start
    by_cases old : i < built.blocks.length
    · left
      obtain ⟨block, found⟩ : ∃ block, built.blocks[i]? = some block := ⟨_, List.getElem?_eq_getElem old⟩
      exact grown_child program marks lines.toList state built fresh grows next.toList starts i
        block.lines.first new (by rw [startOf?, found]; rfl)
    · right
      obtain ⟨block, found, rfl⟩ := Option.map_eq_some_iff.mp start
      change rooted.blocks[i]? = some block at found
      rw [growsRoot.blocks, List.getElem?_append_right (by lia)] at found
      have first := moreStart block (List.mem_of_getElem? found)
      rw [first] at start
      rw [start_of_inj program marks rooted.blocks growsRoot.placed i root entry start rootStart]
      exact rootMember

theorem process_processed (program : Program) (marks : Landmarks)
    (describes : Landmarks.Describes program marks) (state : Construction) (id : BlockId) (last : Line)
    (statement : Statement) (placed : Placed program marks (state.blocks.map Block.lines))
    (known : id < state.blocks.length) (found : program.get? last = some statement)
    (ends : last + 1 = program.size ∨ last + 1 ∈ marks.leaders) :
    ∃ after next fresh, process program marks state id last statement = .ok after ∧
      Processed program marks state after id last next fresh := by
  obtain ⟨lines, diagnostics, followed, follow⟩ :=
    following_follow program marks describes last statement found
  obtain ⟨fresh, grows, starts⟩ := map_block_at_grows program marks describes
    { state with diagnostics := state.diagnostics ++ diagnostics } placed lines
    (follow_leaders program marks describes last lines follow ends)
  rcases mapped : lines.mapM (blockAt program marks)
    { state with diagnostics := state.diagnostics ++ diagnostics } with ⟨next, built⟩
  rw [mapped] at grows starts
  have same : Grows program marks lines.toList state built fresh :=
    ⟨grows.blocks, grows.pending, grows.roots, grows.starts, grows.unlinked, grows.placed⟩
  simp only [process, followed, mapped]
  cases called : calledEntry? marks statement with
  | none =>
      refine ⟨_, next, fresh, rfl, link_processed program marks state built id last lines next fresh
        follow same starts ?_⟩
      intro entry calls
      rw [(called_entry program marks describes last statement found entry).mpr calls] at called
      cases called
  | some entry =>
      have calls := (called_entry program marks describes last statement found entry).mp called
      have only : ∀ other, program.Calls last other → other = entry := by
        intro other otherCalls
        have equal := (called_entry program marks describes last statement found other).mpr otherCalls
        exact Option.some.inj (equal.symm.trans called)
      have linkedPlaced : Placed program marks ((built.link id next).blocks.map Block.lines) := by
        rw [link_lines]
        exact same.placed
      obtain ⟨rooted, more, root, growsRoot, rootStart, equal⟩ := add_root_grows program marks describes
        (built.link id next) linkedPlaced entry
        ((describes.leaders entry).mpr (program.calls_leader last entry calls))
      have roots : (built.link id next).roots = state.roots := same.roots
      rw [roots] at equal
      exact ⟨_, next, fresh ++ more, congrArg Except.ok equal, root_processed program marks state built
        rooted id last entry lines next fresh more root follow same starts known calls only growsRoot
        rootStart⟩

inductive Connected (blocks : List Block) (roots : List BlockId) : BlockId → Prop where
  | root (id : BlockId) (member : id ∈ roots) : Connected blocks roots id
  | child (parent id : BlockId) (block : Block) (before : Connected blocks roots parent)
      (found : blocks[parent]? = some block) (edge : id ∈ block.children) : Connected blocks roots id

theorem connected_mono (blocks more : List Block) (roots moreRoots : List BlockId)
    (keepsRoots : roots ⊆ moreRoots)
    (keepsEdges : ∀ (parent : BlockId) (block : Block), blocks[parent]? = some block →
      ∃ other, more[parent]? = some other ∧ block.children ⊆ other.children)
    (id : BlockId) (connected : Connected blocks roots id) : Connected more moreRoots id := by
  induction connected with
  | root id member => exact .root id (keepsRoots member)
  | child parent id block _ found edge ih =>
      obtain ⟨other, foundOther, subset⟩ := keepsEdges parent block found
      exact .child parent id other ih foundOther (subset edge)

structure Linked (program : Program) (blocks : List Block) (roots : List BlockId) (block : Block) :
    Prop where
  follow : ∃ lines, Follow program block.lines.last lines ∧
    block.children.map (startOf? blocks) = lines.toList.map some
  called : ∀ entry, program.Calls block.lines.last entry →
    ∃ root ∈ roots, startOf? blocks root = some entry

/-- What holds between two steps. Only pending blocks are not linked yet. -/
structure Invariant (program : Program) (marks : Landmarks) (start : Line) (state : Construction) :
    Prop where
  placed : Placed program marks (state.blocks.map Block.lines)
  pendingNodup : state.pending.Nodup
  pendingBound : ∀ id ∈ state.pending, id < state.blocks.length
  rootsBound : ∀ root ∈ state.roots, root < state.blocks.length
  entry : ∃ root, state.roots.head? = some root ∧ startOf? state.blocks root = some start
  unlinked : ∀ id block, id ∈ state.pending → state.blocks[id]? = some block →
    block.next = .terminated
  linked : ∀ id block, id ∉ state.pending → state.blocks[id]? = some block →
    Linked program state.blocks state.roots block
  connected : ∀ id, id < state.blocks.length → Connected state.blocks state.roots id
  reached : ∀ block ∈ state.blocks, program.Reaches start block.lines.first

section Processing

variable {program : Program} {marks : Landmarks} {state after : Construction} {id : BlockId}
  {last : Line} {next : Successors BlockId} {fresh : List Block}

theorem processed_get (done : Processed program marks state after id last next fresh) (i : BlockId)
    (block : Block) (found : state.blocks[i]? = some block) :
    after.blocks[i]? = some (relink id next i block) := by
  have bound := (List.getElem?_eq_some_iff.mp found).1
  rw [done.blocks, List.getElem?_append_left bound, found]
  rfl

theorem processed_get_cases (done : Processed program marks state after id last next fresh)
    (i : BlockId) (block : Block) (found : after.blocks[i]? = some block) :
    (∃ old, state.blocks[i]? = some old ∧ block = relink id next i old) ∨
      (state.blocks.length ≤ i ∧ ∃ new ∈ fresh, block = relink id next i new) := by
  rw [done.blocks, List.getElem?_append] at found
  by_cases bound : i < state.blocks.length
  · rw [if_pos bound] at found
    obtain ⟨old, foundOld, same⟩ := Option.map_eq_some_iff.mp found
    exact Or.inl ⟨old, foundOld, same.symm⟩
  · rw [if_neg bound] at found
    obtain ⟨new, foundNew, same⟩ := Option.map_eq_some_iff.mp found
    exact Or.inr ⟨Nat.le_of_not_lt bound, new, List.mem_of_getElem? foundNew, same.symm⟩

theorem processed_start (done : Processed program marks state after id last next fresh) (i : BlockId)
    (line : Line) (start : startOf? state.blocks i = some line) :
    startOf? after.blocks i = some line := by
  obtain ⟨block, found, first⟩ := Option.map_eq_some_iff.mp start
  rw [startOf?, processed_get done i block found]
  exact congrArg some first

theorem processed_length (done : Processed program marks state after id last next fresh) :
    after.blocks.length = state.blocks.length + fresh.length := by
  apply Nat.le_antisymm
  · apply List.getElem?_eq_none_iff.mp
    rw [done.blocks, List.getElem?_eq_none (by simp)]
    rfl
  · have bound : (state.blocks ++ fresh).length ≤ after.blocks.length := by
      apply Nat.le_of_not_lt
      intro less
      have absent := List.getElem?_eq_none (Nat.le_refl after.blocks.length)
      rw [done.blocks, List.getElem?_eq_getElem less] at absent
      cases absent
    simpa using bound

theorem processed_mem_pending (done : Processed program marks state after id last next fresh)
    (i : BlockId) : i ∈ after.pending ↔
      (state.blocks.length ≤ i ∧ i < after.blocks.length) ∨ i ∈ state.pending := by
  rw [done.pending, List.mem_append, List.mem_reverse, List.mem_range'_1, processed_length done]

theorem processed_roots (done : Processed program marks state after id last next fresh) :
    state.roots ⊆ after.roots := by
  obtain ⟨more, roots, _⟩ := done.roots
  rw [roots]
  exact List.subset_append_left state.roots more

theorem linked_mono {blocks more : List Block} {roots moreRoots : List BlockId} {block : Block}
    (linked : Linked program blocks roots block) (keepsRoots : roots ⊆ moreRoots)
    (keepsStarts : ∀ i line, startOf? blocks i = some line → startOf? more i = some line) :
    Linked program more moreRoots block := by
  obtain ⟨⟨lines, follow, starts⟩, called⟩ := linked
  refine ⟨⟨lines, follow, starts_mono blocks more _ _ starts keepsStarts⟩, ?_⟩
  intro entry calls
  obtain ⟨root, member, start⟩ := called entry calls
  exact ⟨root, keepsRoots member, keepsStarts root entry start⟩

theorem processed_connected (done : Processed program marks state after id last next fresh)
    (block : Block) (found : state.blocks[id]? = some block) (unlinked : block.next = .terminated)
    (connected : ∀ i, i < state.blocks.length → Connected state.blocks state.roots i) (i : BlockId)
    (bound : i < after.blocks.length) : Connected after.blocks after.roots i := by
  have keeps : ∀ i, i < state.blocks.length → Connected after.blocks after.roots i := by
    intro i old
    refine connected_mono state.blocks after.blocks state.roots after.roots (processed_roots done) ?_ i
      (connected i old)
    intro parent other foundOther
    refine ⟨_, processed_get done parent other foundOther, ?_⟩
    by_cases same : parent = id
    · subst same
      obtain rfl : other = block := Option.some.inj (foundOther.symm.trans found)
      simp [Block.children, unlinked, Successors.toList]
    · simp [Block.children, relink, same]
  by_cases old : i < state.blocks.length
  · exact keeps i old
  · have start : startOf? after.blocks i = some (after.blocks[i]).lines.first := by
      rw [startOf?, List.getElem?_eq_getElem bound]
      rfl
    rcases done.connected i _ (Nat.le_of_not_lt old) start with child | root
    · refine .child id i _ (keeps id (List.getElem?_eq_some_iff.mp found).1)
        (processed_get done id block found) ?_
      simpa [Block.children, relink] using child
    · exact .root i root

theorem processed_linked (done : Processed program marks state after id last next fresh)
    (linked : ∀ i block, i ≠ id → i ∉ state.pending → state.blocks[i]? = some block →
      Linked program state.blocks state.roots block)
    (block : Block) (found : state.blocks[id]? = some block) (ends : block.lines.last = last)
    (i : BlockId) (other : Block) (settled : i ∉ after.pending)
    (foundOther : after.blocks[i]? = some other) : Linked program after.blocks after.roots other := by
  rw [processed_mem_pending done, not_or] at settled
  have bound := (List.getElem?_eq_some_iff.mp foundOther).1
  rcases processed_get_cases done i other foundOther with ⟨old, foundOld, rfl⟩ | ⟨new, _⟩
  · by_cases same : i = id
    · subst same
      obtain rfl : old = block := Option.some.inj (foundOld.symm.trans found)
      obtain ⟨lines, follow, starts⟩ := done.follow
      refine ⟨⟨lines, ends ▸ follow, by simpa [Block.children, relink] using starts⟩, ?_⟩
      intro entry calls
      exact done.called entry (ends ▸ calls)
    · obtain ⟨follow, called⟩ := linked_mono (linked i old same settled.2 foundOld)
        (processed_roots done) (processed_start done)
      exact ⟨by simpa [Block.children, relink, same] using follow, called⟩
  · exact absurd ⟨new, bound⟩ settled.1

theorem block_runs (describes : Landmarks.Describes program marks) (ranges : List LineRange)
    (placed : Placed program marks ranges) (range : LineRange) (member : range ∈ ranges) (line : Line)
    (inside : range.contains line = true) : program.Reaches range.first line := by
  obtain ⟨_, bound, interior, _⟩ := placed_bounds program marks describes ranges placed range member
  rw [LineRange.contains_iff] at inside
  obtain ⟨first, below⟩ := inside
  obtain ⟨offset, rfl⟩ := Nat.exists_eq_add_of_le first
  induction offset with
  | zero => exact .refl
  | succ offset ih =>
      have notLeader : ¬ program.Leader (range.first + offset + 1) := fun leader =>
        interior _ (by lia) below ((describes.leaders _).mpr leader)
      have falls := (program.inside_falls_through (range.first + offset) (by lia) notLeader).1
      exact .tail (ih (by lia) (by lia)) (Or.inl (Or.inl ⟨falls, rfl⟩))

theorem processed_reached (describes : Landmarks.Describes program marks)
    (done : Processed program marks state after id last next fresh) (start : Line)
    (placed : Placed program marks (state.blocks.map Block.lines)) (block : Block)
    (found : state.blocks[id]? = some block) (ends : block.lines.last = last)
    (reached : ∀ other ∈ state.blocks, program.Reaches start other.lines.first) :
    ∀ other ∈ after.blocks, program.Reaches start other.lines.first := by
  intro other member
  obtain ⟨i, foundOther⟩ := List.mem_iff_getElem?.mp member
  rcases processed_get_cases done i other foundOther with ⟨old, foundOld, rfl⟩ | ⟨_, new, fresh, rfl⟩
  · exact reached old (List.mem_of_getElem? foundOld)
  · have present := List.mem_of_getElem? found
    have listed : block.lines ∈ state.blocks.map Block.lines := List.mem_map_of_mem present
    obtain ⟨order, _, _, _⟩ := placed_bounds program marks describes _ placed block.lines listed
    have through : program.Reaches block.lines.first last := by
      apply block_runs describes _ placed block.lines listed
      rw [LineRange.contains_iff, ← ends]
      exact ⟨order, Nat.le_refl _⟩
    exact .tail ((reached block present).trans through) (done.reached new fresh)

theorem processed_invariant (describes : Landmarks.Describes program marks) (start : Line)
    (rest : List BlockId) (inv : Invariant program marks start state)
    (stacked : state.pending = id :: rest) (block : Block) (found : state.blocks[id]? = some block)
    (done : Processed program marks { state with pending := rest } after id block.lines.last next fresh) :
    Invariant program marks start after := by
  have nodup := inv.pendingNodup
  rw [stacked, List.nodup_cons] at nodup
  have top : id ∈ state.pending := by
    rw [stacked]
    exact List.mem_cons_self
  have restBound : ∀ i ∈ rest, i < state.blocks.length := fun i member =>
    inv.pendingBound i (by rw [stacked]; exact List.mem_cons_of_mem id member)
  have length := processed_length done
  refine ⟨done.placed, ?_, ?_, ?_, ?_, ?_, ?_, ?_, ?_⟩
  · rw [done.pending, List.nodup_append]
    refine ⟨List.nodup_reverse.mpr (List.nodup_range' 1), nodup.2, ?_⟩
    intro i fresh j old
    rw [List.mem_reverse, List.mem_range'_1] at fresh
    have bound := restBound j old
    lia
  · intro i member
    rcases (processed_mem_pending done i).mp member with new | old
    · exact new.2
    · have bound := restBound i old
      lia
  · intro root member
    obtain ⟨more, roots, called⟩ := done.roots
    rw [roots, List.mem_append] at member
    rcases member with old | new
    · have bound := inv.rootsBound root old
      lia
    · obtain ⟨entry, _, rootStart⟩ := called root new
      exact start_of_lt after.blocks root entry rootStart
  · obtain ⟨root, head, entry⟩ := inv.entry
    obtain ⟨more, roots, _⟩ := done.roots
    exact ⟨root, by simp [roots, head], processed_start done root start entry⟩
  · intro i other member foundOther
    rcases processed_get_cases done i other foundOther with ⟨old, foundOld, rfl⟩ | ⟨bound, new, fresh, rfl⟩
    · have waiting : i ∈ rest := by
        rcases (processed_mem_pending done i).mp member with new | waiting
        · have bound := (List.getElem?_eq_some_iff.mp foundOld).1
          lia
        · exact waiting
      have different : i ≠ id := fun same => nodup.1 (same ▸ waiting)
      simp only [relink, if_neg different]
      exact inv.unlinked i old (by rw [stacked]; exact List.mem_cons_of_mem id waiting) foundOld
    · have known := inv.pendingBound id top
      have different : i ≠ id := by lia
      simp only [relink, if_neg different]
      exact (done.unlinked new fresh).1
  · apply processed_linked done ?_ block found rfl
    intro i other different settled foundOther
    refine inv.linked i other ?_ foundOther
    rw [stacked, List.mem_cons, not_or]
    exact ⟨different, settled⟩
  · exact processed_connected done block found (inv.unlinked id block top found) inv.connected
  · exact processed_reached describes done start inv.placed block found rfl inv.reached

end Processing

theorem step_processed (program : Program) (marks : Landmarks)
    (describes : Landmarks.Describes program marks) (start : Line) (state : Construction)
    (inv : Invariant program marks start state) (busy : state.pending ≠ []) :
    ∃ id rest block statement after next fresh, state.pending = id :: rest ∧ state.blocks[id]? = some block ∧
      program.get? block.lines.last = some statement ∧
      process program marks { state with pending := rest } id block.lines.last statement = .ok after ∧
      step program marks state = .ok after ∧
      Processed program marks { state with pending := rest } after id block.lines.last next fresh := by
  obtain ⟨id, rest, stacked⟩ := List.exists_cons_of_ne_nil busy
  have known := inv.pendingBound id (by rw [stacked]; exact List.mem_cons_self)
  have found := List.getElem?_eq_getElem known
  have listed : state.blocks[id].lines ∈ state.blocks.map Block.lines :=
    List.mem_map_of_mem (List.getElem_mem known)
  obtain ⟨_, bound, _, ends⟩ := placed_bounds program marks describes _ inv.placed _ listed
  obtain ⟨statement, foundStatement⟩ := program.get_of_lt _ bound
  obtain ⟨after, next, fresh, equal, done⟩ := process_processed program marks describes
    { state with pending := rest } id _ statement inv.placed known foundStatement ends
  refine ⟨id, rest, _, statement, after, next, fresh, stacked, found, foundStatement, equal, ?_, done⟩
  simp only [step, stacked, found, foundStatement]
  exact equal

theorem step_invariant (program : Program) (marks : Landmarks)
    (describes : Landmarks.Describes program marks) (start : Line) (state : Construction)
    (inv : Invariant program marks start state) (busy : state.pending ≠ []) :
    ∃ after, step program marks state = .ok after ∧ Invariant program marks start after ∧
      after.blocks.length + state.pending.length = state.blocks.length + after.pending.length + 1 := by
  obtain ⟨id, rest, block, statement, after, next, fresh, stacked, found, _, _, stepped, done⟩ :=
    step_processed program marks describes start state inv busy
  refine ⟨after, stepped, processed_invariant describes start rest inv stacked block found done, ?_⟩
  rw [processed_length done, done.pending, stacked]
  simp
  lia

theorem run_invariant (program : Program) (marks : Landmarks)
    (describes : Landmarks.Describes program marks) (start : Line) (steps : Nat) (state : Construction)
    (inv : Invariant program marks start state)
    (enough : program.size + state.pending.length ≤ steps + state.blocks.length) :
    ∃ final, run program marks steps state = .ok final ∧ Invariant program marks start final ∧
      final.pending = [] := by
  -- Each step links another block, and there are no more blocks than lines.
  induction steps generalizing state with
  | zero =>
      have bound := placed_length program marks describes _ inv.placed
      rw [List.length_map] at bound
      exact ⟨state, rfl, inv, List.eq_nil_of_length_eq_zero (by lia)⟩
  | succ steps ih =>
      by_cases idle : state.pending = []
      · exact ⟨state, by simp [run, idle], inv, idle⟩
      · obtain ⟨after, stepped, invAfter, progress⟩ :=
          step_invariant program marks describes start state inv idle
        obtain ⟨final, ran, invFinal, finished⟩ := ih after invAfter (by lia)
        refine ⟨final, ?_, invFinal, finished⟩
        simp only [run, stepped, ran]
        simp [idle]

theorem run_keeps (program : Program) (marks : Landmarks) (describes : Landmarks.Describes program marks)
    (start : Line) (motive : Construction → Prop)
    (keeps : ∀ state after, Invariant program marks start state → state.pending ≠ [] →
      step program marks state = .ok after → motive state → motive after)
    (steps : Nat) (state final : Construction) (inv : Invariant program marks start state)
    (ran : run program marks steps state = .ok final) (holds : motive state) : motive final := by
  induction steps generalizing state with
  | zero =>
      obtain rfl := Except.ok.inj ran
      exact holds
  | succ steps ih =>
      by_cases idle : state.pending = []
      · simp only [run, idle, List.isEmpty_nil, if_true] at ran
        obtain rfl := Except.ok.inj ran
        exact holds
      · obtain ⟨after, stepped, invAfter, _⟩ := step_invariant program marks describes start state inv idle
        simp only [run, stepped, List.isEmpty_iff, idle, if_false] at ran
        exact ih after invAfter ran (keeps state after inv idle stepped holds)

theorem initial_block (program : Program) (marks : Landmarks) (start : Line) (id : BlockId) (block : Block)
    (found : (empty.addRoot program marks start).blocks[id]? = some block) :
    id = 0 ∧ block = .fresh ⟨start, marks.lastLine program.size start⟩ := by
  have only : (empty.addRoot program marks start).blocks =
      [.fresh ⟨start, marks.lastLine program.size start⟩] := rfl
  rw [only, List.getElem?_singleton] at found
  by_cases zero : id = 0
  · rw [if_pos zero] at found
    exact ⟨zero, (Option.some.inj found).symm⟩
  · rw [if_neg zero] at found
    cases found

theorem initial_invariant (program : Program) (marks : Landmarks) (start : Line) (leader : start ∈ marks.leaders) :
    Invariant program marks start (empty.addRoot program marks start) ∧
      (empty.addRoot program marks start).pending.length =
        (empty.addRoot program marks start).blocks.length := by
  have block : empty.addRoot program marks start =
      ⟨[.fresh ⟨start, marks.lastLine program.size start⟩], [0], [0], []⟩ := rfl
  have placed : Placed program marks [⟨start, marks.lastLine program.size start⟩] :=
    placed_append program marks [] ⟨by simp, by simp, by simp⟩ start leader (by simp)
  rw [block]
  refine ⟨⟨placed, by simp, by simp, by simp, ⟨0, rfl, rfl⟩, ?_, ?_, ?_, ?_⟩, rfl⟩
  · intro id block member found
    rw [List.mem_singleton.mp member] at found
    exact congrArg Block.next (Option.some.inj found).symm
  · intro id block settled found
    have bound := (List.getElem?_eq_some_iff.mp found).1
    simp only [List.length_singleton, List.mem_singleton] at bound settled
    lia
  · intro id bound
    simp only [List.length_singleton] at bound
    exact .root id (List.mem_singleton.mpr (by lia))
  · intro block member
    rw [List.mem_singleton.mp member]
    exact .refl

end Construction

structure Complete (program : Program) (start : Line) (graph : FlowGraph) : Prop where
  describes : Landmarks.Describes program graph.landmarks
  placed : Placed program graph.landmarks (graph.blocks.map Block.lines)
  rootsBound : ∀ root ∈ graph.roots, root < graph.blocks.length
  entry : ∃ root, graph.roots.head? = some root ∧ startOf? graph.blocks root = some start
  linked : ∀ (id : BlockId) (block : Block), graph.blocks[id]? = some block →
    Construction.Linked program graph.blocks graph.roots block
  connected : ∀ id, id < graph.blocks.length → Construction.Connected graph.blocks graph.roots id
  reached : ∀ block ∈ graph.blocks, program.Reaches start block.lines.first

theorem entry_line (program : Program) (marks : Landmarks)
    (describes : Landmarks.Describes program marks) (table : SymbolTable) (name : String) (start : Line) :
    entryLine? marks table name = some start ↔
      ∃ function, table.findFunction? name = some function ∧ program.LastNaming .func function start := by
  unfold entryLine?
  rw [Option.bind_eq_some_iff]
  simp only [describes.entries]

theorem complete_of_run (program : Program) (marks : Landmarks)
    (describes : Landmarks.Describes program marks) (start : Line) (leader : program.Leader start) :
    ∃ state : Construction,
      Construction.run program marks program.size (Construction.empty.addRoot program marks start) = .ok state ∧
      Complete program start ⟨state.blocks, state.roots, marks, state.diagnostics⟩ := by
  obtain ⟨initial, full⟩ := Construction.initial_invariant program marks start
    ((describes.leaders start).mpr leader)
  obtain ⟨state, ran, inv, finished⟩ := Construction.run_invariant program marks describes start
    program.size _ initial (by lia)
  refine ⟨state, ran, describes, inv.placed, inv.rootsBound, inv.entry, ?_, inv.connected, inv.reached⟩
  intro id block found
  exact inv.linked id block (by simp [finished]) found

theorem build_from_entry (program : Program) (table : SymbolTable) (name : String) (marks : Landmarks)
    (collected : Landmarks.collect program = .ok marks) (function : SymbolId) (start : Line)
    (named : table.findFunction? name = some function) (last : program.LastNaming .func function start) :
    ∃ graph, build program table name = .ok graph ∧ Complete program start graph := by
  have describes := Landmarks.collect_describes program marks collected
  have entry := (entry_line program marks describes table name start).mpr ⟨function, named, last⟩
  obtain ⟨state, ran, complete⟩ :=
    complete_of_run program marks describes start (program.entry_leader function start last)
  refine ⟨⟨state.blocks, state.roots, marks, state.diagnostics⟩, ?_, complete⟩
  simp only [build, collected, entry, ran]

theorem build_run (program : Program) (table : SymbolTable) (name : String) (graph : FlowGraph)
    (built : build program table name = .ok graph) :
    ∃ marks function start state, Landmarks.collect program = .ok marks ∧
      table.findFunction? name = some function ∧ program.LastNaming .func function start ∧
      Construction.run program marks program.size (Construction.empty.addRoot program marks start) = .ok state ∧
      graph = ⟨state.blocks, state.roots, marks, state.diagnostics⟩ := by
  cases collected : Landmarks.collect program with
  | error reason => simp [build, collected] at built
  | ok marks =>
      have describes := Landmarks.collect_describes program marks collected
      cases entry : entryLine? marks table name with
      | none => simp [build, collected, entry] at built
      | some start =>
          obtain ⟨function, named, last⟩ := (entry_line program marks describes table name start).mp entry
          cases ran : Construction.run program marks program.size
              (Construction.empty.addRoot program marks start) with
          | error reason => simp [build, collected, entry, ran] at built
          | ok state =>
              simp only [build, collected, entry, ran, Except.ok.injEq] at built
              exact ⟨marks, function, start, state, rfl, named, last, ran, built.symm⟩

theorem build_keeps (program : Program) (table : SymbolTable) (name : String) (graph : FlowGraph)
    (built : build program table name = .ok graph) :
    ∃ marks function start state, graph = ⟨state.blocks, state.roots, marks, state.diagnostics⟩ ∧
      table.findFunction? name = some function ∧ program.LastNaming .func function start ∧
      Complete program start graph ∧ state.pending = [] ∧
      ∀ motive : Construction → Prop,
        (∀ state after, Construction.Invariant program marks start state → state.pending ≠ [] →
          Construction.step program marks state = .ok after → motive state → motive after) →
        motive (Construction.empty.addRoot program marks start) → motive state := by
  obtain ⟨marks, function, start, state, collected, named, last, ran, rfl⟩ :=
    build_run program table name graph built
  have describes := Landmarks.collect_describes program marks collected
  have leader := program.entry_leader function start last
  obtain ⟨initial, full⟩ :=
    Construction.initial_invariant program marks start ((describes.leaders start).mpr leader)
  obtain ⟨final, ranFinal, _, finished⟩ :=
    Construction.run_invariant program marks describes start program.size _ initial (by lia)
  obtain rfl : final = state := Except.ok.inj (ranFinal.symm.trans ran)
  obtain ⟨other, ranOther, complete⟩ := complete_of_run program marks describes start leader
  obtain rfl : other = final := Except.ok.inj (ranOther.symm.trans ran)
  refine ⟨marks, function, start, other, rfl, named, last, complete, finished, ?_⟩
  intro motive keeps first
  exact Construction.run_keeps program marks describes start motive keeps program.size _ other initial ran first

theorem build_complete (program : Program) (table : SymbolTable) (name : String) (graph : FlowGraph)
    (built : build program table name = .ok graph) :
    ∃ function start, table.findFunction? name = some function ∧
      program.LastNaming .func function start ∧ Complete program start graph := by
  obtain ⟨_, function, start, _, _, named, last, complete, _⟩ := build_keeps program table name graph built
  exact ⟨function, start, named, last, complete⟩

section Labelled

variable (program : Program) (table : SymbolTable) (name : String)
  (targets : ∀ line statement label, program.get? line = some statement →
    statement.jumpTarget? = some label → ∃ target, program.LastNaming .label label target)

include targets

theorem build_unnamed (absent : table.findFunction? name = none) :
    build program table name = .error (.noEntryPoint name) := by
  obtain ⟨marks, collected⟩ := Landmarks.collect_succeeds program targets
  rw [build, collected]
  simp only [entryLine?, absent, Option.bind_none]

theorem build_named (function : SymbolId) (start : Line) (named : table.findFunction? name = some function)
    (last : program.LastNaming .func function start) : ∃ graph, build program table name = .ok graph := by
  obtain ⟨marks, collected⟩ := Landmarks.collect_succeeds program targets
  obtain ⟨graph, built, _⟩ := build_from_entry program table name marks collected function start named last
  exact ⟨graph, built⟩

end Labelled

end FlowGraph

end ThreeAddress
