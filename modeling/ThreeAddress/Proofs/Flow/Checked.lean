import ThreeAddress.Proofs.Flow.Construction

set_option autoImplicit false

/-!
The construction of a graph with all accesses checked. The block of each line is kept in a table, and
a place outside a table or a list, or a difference below zero, ends the construction without a result.
That never happens, and what is built is the same graph.
-/

namespace ThreeAddress

namespace Checked

variable {α β γ : Type}

def write (xs : List α) (index : Nat) (x : α) : Option (List α) :=
  if index < xs.length then some (xs.set index x) else none

def adjust (xs : List α) (index : Nat) (change : α → α) : Option (List α) :=
  if index < xs.length then some (xs.modify index change) else none

def less : Nat → Option Nat
  | 0 => none
  | n + 1 => some n

theorem fold_viewed (view : β → γ) (plain : β → α → β) (checked : γ → α → Option γ) (safe : β → Prop)
    (xs : List α) (start : β)
    (one : ∀ state, ∀ x ∈ xs, safe state →
      checked (view state) x = some (view (plain state x)) ∧ safe (plain state x))
    (first : safe start) :
    xs.foldlM checked (view start) = some (view (xs.foldl plain start)) ∧ safe (xs.foldl plain start) := by
  induction xs generalizing start with
  | nil => exact ⟨rfl, first⟩
  | cons x rest ih =>
      obtain ⟨succeeds, kept⟩ := one start x List.mem_cons_self first
      rw [List.foldlM_cons, succeeds]
      exact ih (plain start x) (fun state y member => one state y (List.mem_cons_of_mem x member)) kept

theorem fold_checked (plain : β → α → β) (checked : β → α → Option β) (safe : β → Prop) (xs : List α) (start : β)
    (one : ∀ state, ∀ x ∈ xs, safe state → checked state x = some (plain state x) ∧ safe (plain state x))
    (first : safe start) :
    xs.foldlM checked start = some (xs.foldl plain start) ∧ safe (xs.foldl plain start) :=
  fold_viewed (fun state => state) plain checked safe xs start one first

theorem map_checked (plain : α → β) (checked : α → Option β) (xs : List α)
    (one : ∀ x ∈ xs, checked x = some (plain x)) : xs.mapM checked = some (xs.map plain) := by
  induction xs with
  | nil => rfl
  | cons x rest ih =>
      rw [List.mapM_cons, one x List.mem_cons_self, ih fun y member => one y (List.mem_cons_of_mem x member)]
      rfl

theorem set_table (count : Nat) (table : Nat → α) (index : Nat) (x : α) :
    ((List.range count).map table).set index x = (List.range count).map (Function.update table index x) := by
  apply List.ext_getElem (by simp)
  intro other _ _
  rw [List.getElem_set]
  by_cases same : index = other
  · simp [same]
  · simp [same, Ne.symm same]

theorem fill_table (count : Nat) (table : Nat → α) (indices : List Nat) (x : α)
    (inside : ∀ index ∈ indices, index < count) :
    indices.foldlM (fun slots index => write slots index x) ((List.range count).map table) =
      some ((List.range count).map fun index => if index ∈ indices then x else table index) := by
  induction indices generalizing table with
  | nil => simp
  | cons index rest ih =>
      have bound : index < ((List.range count).map table).length := by simpa using inside index List.mem_cons_self
      rw [List.foldlM_cons, write, if_pos bound, set_table]
      refine (ih _ fun other member => inside other (List.mem_cons_of_mem index member)).trans ?_
      apply congrArg fun table => some ((List.range count).map table)
      funext other
      by_cases same : other = index
      · simp [same]
      · simp [same]

end Checked

namespace FlowGraph

open Checked

theorem block_containing_append (blocks : List Block) (block : Block) (line : Line) :
    blockContaining? (blocks ++ [block]) line =
      (blockContaining? blocks line).or (if block.lines.contains line = true then some blocks.length else none) := by
  rw [blockContaining?, List.findIdx?_append, blockContaining?, List.findIdx?_singleton]
  by_cases inside : block.lines.contains line = true
  · simp [inside]
  · simp [inside]

theorem block_containing_lines (blocks others : List Block)
    (same : blocks.map Block.lines = others.map Block.lines) : blockContaining? blocks = blockContaining? others := by
  funext line
  have left := List.findIdx?_map (p := fun range : LineRange => range.contains line) (f := Block.lines) (l := blocks)
  have right := List.findIdx?_map (p := fun range : LineRange => range.contains line) (f := Block.lines) (l := others)
  exact left.symm.trans ((congrArg _ same).trans right)

def ownerTable (lineCount : Nat) (blocks : List Block) : List (Option BlockId) :=
  (List.range lineCount).map (blockContaining? blocks)

theorem owners_get (lineCount : Nat) (blocks : List Block) (line : Line) (bound : line < lineCount) :
    (ownerTable lineCount blocks)[line]? = some (blockContaining? blocks line) := by
  simp [ownerTable, bound]

theorem owners_length (lineCount : Nat) (blocks : List Block) : (ownerTable lineCount blocks).length = lineCount := by
  simp [ownerTable]

theorem owners_fill (lineCount : Nat) (blocks : List Block) (block : Block) (bound : block.lines.last < lineCount)
    (free : ∀ line, block.lines.contains line = true → blockContaining? blocks line = none) :
    block.lines.toList.foldlM (fun slots line => write slots line (some blocks.length)) (ownerTable lineCount blocks) =
      some (ownerTable lineCount (blocks ++ [block])) := by
  rw [ownerTable, fill_table]
  · apply congrArg fun table => some ((List.range lineCount).map table)
    funext line
    simp only [block_containing_append, LineRange.mem_to_list]
    by_cases inside : block.lines.contains line = true
    · simp [inside, free line inside]
    · simp [inside]
  · intro line member
    rw [LineRange.mem_to_list, LineRange.contains_iff] at member
    lia

structure Draft where
  state : Construction
  owners : List (Option BlockId)

namespace Draft

def of (program : Program) (state : Construction) : Draft := ⟨state, ownerTable program.size state.blocks⟩

/-- The last line of the program is looked up whether or not another leader follows. -/
def lastLine (marks : Landmarks) (lineCount : Nat) (start : Line) : Option Line := do
  let final ← less lineCount
  match marks.nextLeader? start with
  | some next => less next
  | none => some final

def blockAt (marks : Landmarks) (start : Line) : StateT Draft Option BlockId := fun draft => do
  match ← draft.owners[start]? with
  | some id => some (id, draft)
  | none =>
    let last ← lastLine marks draft.owners.length start
    let id := draft.state.blocks.length
    let owners ← (LineRange.toList ⟨start, last⟩).foldlM (fun owners line => write owners line (some id)) draft.owners
    some (id,
      { state :=
          { draft.state with
            blocks := draft.state.blocks ++ [.fresh ⟨start, last⟩]
            pending := id :: draft.state.pending }
        owners := owners })

def addRoot (marks : Landmarks) (draft : Draft) (start : Line) : Option Draft := do
  let (id, built) ← blockAt marks start draft
  if id ∈ built.state.roots then some built
  else some { built with state := { built.state with roots := built.state.roots ++ [id] } }

def link (draft : Draft) (id : BlockId) (next : Successors BlockId) : Option Draft := do
  let blocks ← next.toList.foldlM (fun blocks child => adjust blocks child (Block.addParent id)) draft.state.blocks
  let blocks ← adjust blocks id fun block => { block with next := next }
  some { draft with state := { draft.state with blocks := blocks } }

def process (program : Program) (marks : Landmarks) (draft : Draft) (id : BlockId) :
    Option (Except FlowError Draft) := do
  let block ← draft.state.blocks[id]?
  let statement ← program.get? block.lines.last
  match Construction.following program marks block.lines.last statement with
  | .error reason => some (.error reason)
  | .ok (lines, found) =>
    let (next, built) ← lines.mapM (blockAt marks)
      { draft with state := { draft.state with diagnostics := draft.state.diagnostics ++ found } }
    let linked ← built.link id next
    match Construction.calledEntry? marks statement with
    | some start =>
      let rooted ← linked.addRoot marks start
      some (.ok rooted)
    | none => some (.ok linked)

def run (program : Program) (marks : Landmarks) : Nat → Draft → Option (Except FlowError Draft)
  | 0, draft => some (.ok draft)
  | steps + 1, draft =>
    match draft.state.pending with
    | [] => some (.ok draft)
    | id :: rest => do
      match ← process program marks { draft with state := { draft.state with pending := rest } } id with
      | .ok after => run program marks steps after
      | .error reason => some (.error reason)

end Draft

def buildChecked (program : Program) (table : SymbolTable) (entry : String) : Option (Except FlowError FlowGraph) :=
  match Landmarks.collect program with
  | .error reason => some (.error reason)
  | .ok marks =>
    match entryLine? marks table entry with
    | none => some (.error (.noEntryPoint entry))
    | some start => do
      let first ← Draft.addRoot marks ⟨.empty, List.replicate program.size none⟩ start
      match ← Draft.run program marks program.size first with
      | .error reason => some (.error reason)
      | .ok draft => some (.ok ⟨draft.state.blocks, draft.state.roots, marks, draft.state.diagnostics⟩)

namespace Draft

theorem last_line_checked (program : Program) (marks : Landmarks) (start : Line) (bound : start < program.size) :
    lastLine marks program.size start = some (marks.lastLine program.size start) := by
  obtain ⟨count, size⟩ := Nat.exists_eq_succ_of_ne_zero (show program.size ≠ 0 by lia)
  rw [marks.last_line_eq, lastLine, size]
  cases found : marks.nextLeader? start with
  | none => simp [less]
  | some next =>
      obtain ⟨_, after, _⟩ := marks.next_leader_some start next found
      obtain ⟨before, rfl⟩ := Nat.exists_eq_succ_of_ne_zero (show next ≠ 0 by lia)
      simp [less]

section Described

variable (program : Program) (marks : Landmarks) (describes : Landmarks.Describes program marks)

include describes

theorem fresh_free (blocks : List Block) (block : Block)
    (placed : Placed program marks ((blocks ++ [block]).map Block.lines)) (line : Line)
    (inside : block.lines.contains line = true) : blockContaining? blocks line = none := by
  cases search : blockContaining? blocks line with
  | none => rfl
  | some id =>
      obtain ⟨bound, contains, _⟩ := List.findIdx?_eq_some_iff_getElem.mp search
      have same := placed_disjoint program marks describes _ placed id blocks.length blocks[id].lines block.lines
        (by simp [List.getElem?_append, bound]) (by simp) line contains inside
      lia

theorem block_at_checked (state : Construction) (placed : Placed program marks (state.blocks.map Block.lines))
    (start : Line) (leader : start ∈ marks.leaders) :
    blockAt marks start (of program state) =
      some ((Construction.blockAt program marks start state).1,
        of program (Construction.blockAt program marks start state).2) := by
  have bound := Landmarks.leader_lt_size program start ((describes.leaders start).mp leader)
  have owner := owners_get program.size state.blocks start bound
  cases search : blockContaining? state.blocks start with
  | some id =>
      rw [search] at owner
      simp [blockAt, Construction.blockAt, of, owner, search]
  | none =>
      rw [search] at owner
      obtain ⟨_, grows, _⟩ := Construction.block_at_grows program marks describes state placed start leader
      have after := grows.placed
      simp only [Construction.blockAt, search] at after
      obtain ⟨_, last, _⟩ := Landmarks.last_line_spec program marks describes start bound
      have filled := owners_fill program.size state.blocks (.fresh ⟨start, marks.lastLine program.size start⟩) last
        (fresh_free program marks describes state.blocks _ after)
      have ends := last_line_checked program marks start bound
      simp only [blockAt, Construction.blockAt, of, owner, search, owners_length, ends, Option.bind_eq_bind,
        Option.bind_some]
      simp only [Block.fresh] at filled ⊢
      rw [filled]
      rfl

theorem map_block_at_checked (state : Construction) (placed : Placed program marks (state.blocks.map Block.lines))
    (lines : Successors Line) (leaders : ∀ line ∈ lines.toList, line ∈ marks.leaders) :
    lines.mapM (blockAt marks) (of program state) =
      some ((lines.mapM (Construction.blockAt program marks) state).1,
        of program (lines.mapM (Construction.blockAt program marks) state).2) := by
  cases lines with
  | terminated => rfl
  | continuous next =>
      have one := block_at_checked program marks describes state placed next
        (leaders next (by simp [Successors.toList]))
      simp only [Successors.mapM, bind, StateT.bind, one, Option.bind]
      rfl
  | branching fallthrough target =>
      have first := block_at_checked program marks describes state placed fallthrough
        (leaders fallthrough (by simp [Successors.toList]))
      obtain ⟨_, grows, _⟩ := Construction.block_at_grows program marks describes state placed fallthrough
        (leaders fallthrough (by simp [Successors.toList]))
      have second := block_at_checked program marks describes _ grows.placed target
        (leaders target (by simp [Successors.toList]))
      simp only [Successors.mapM, bind, StateT.bind, first, second, Option.bind]
      rfl

theorem add_root_checked (state : Construction) (placed : Placed program marks (state.blocks.map Block.lines))
    (start : Line) (leader : start ∈ marks.leaders) :
    addRoot marks (of program state) start = some (of program (state.addRoot program marks start)) := by
  have found := block_at_checked program marks describes state placed start leader
  rcases equal : Construction.blockAt program marks start state with ⟨root, built⟩
  rw [equal] at found
  simp only [addRoot, Construction.addRoot, found, equal, Option.bind_eq_bind, Option.bind_some]
  by_cases old : root ∈ built.roots
  · simp [of, old]
  · simp [of, old]

omit describes in
theorem link_checked (state : Construction) (parent : BlockId) (next : Successors BlockId)
    (known : parent < state.blocks.length) (children : ∀ child ∈ next.toList, child < state.blocks.length) :
    link (of program state) parent next = some (of program (state.link parent next)) := by
  obtain ⟨folded, length⟩ := fold_checked (fun blocks child => blocks.modify child (Block.addParent parent))
    (fun blocks child => adjust blocks child (Block.addParent parent))
    (fun blocks => blocks.length = state.blocks.length) next.toList state.blocks
    (fun blocks child member same => ⟨by simp [adjust, same, children child member], by simpa using same⟩) rfl
  have kept : ownerTable program.size (state.link parent next).blocks = ownerTable program.size state.blocks := by
    rw [ownerTable, block_containing_lines _ _ (Construction.link_lines state parent next), ownerTable]
  simp only [link, of, folded, kept, Option.bind_eq_bind, Option.bind_some]
  simp only [adjust, length, known, if_true, Option.bind_some]
  rfl

theorem process_checked (state : Construction) (placed : Placed program marks (state.blocks.map Block.lines))
    (id : BlockId) (block : Block) (statement : Statement) (known : state.blocks[id]? = some block)
    (found : program.get? block.lines.last = some statement)
    (ends : block.lines.last + 1 = program.size ∨ block.lines.last + 1 ∈ marks.leaders) :
    process program marks (of program state) id =
      some ((Construction.process program marks state id block.lines.last statement).map (of program)) := by
  obtain ⟨lines, diagnostics, followed, follow⟩ :=
    Construction.following_follow program marks describes block.lines.last statement found
  have leaders := Construction.follow_leaders program marks describes block.lines.last lines follow ends
  obtain ⟨fresh, grows, starts⟩ := Construction.map_block_at_grows program marks describes
    { state with diagnostics := state.diagnostics ++ diagnostics } placed lines leaders
  have mapped := map_block_at_checked program marks describes
    { state with diagnostics := state.diagnostics ++ diagnostics } placed lines leaders
  rcases equal : lines.mapM (Construction.blockAt program marks)
    { state with diagnostics := state.diagnostics ++ diagnostics } with ⟨next, built⟩
  rw [equal] at grows starts mapped
  have bound : id < built.blocks.length := by
    rw [grows.blocks, List.length_append]
    exact Nat.lt_add_right fresh.length (List.getElem?_eq_some_iff.mp known).1
  have linked := link_checked program built id next bound
    (Construction.child_lt built.blocks next.toList lines.toList starts)
  simp only [of] at mapped
  simp only [process, Construction.process, of, known, found, followed, mapped, equal, Option.bind_eq_bind,
    Option.bind_some]
  simp only [of] at linked
  rw [linked]
  cases called : Construction.calledEntry? marks statement with
  | none => rfl
  | some entry =>
      have calls := (Construction.called_entry program marks describes _ statement found entry).mp called
      have linkedPlaced : Placed program marks ((built.link id next).blocks.map Block.lines) := by
        rw [Construction.link_lines]
        exact grows.placed
      have rooted := add_root_checked program marks describes (built.link id next) linkedPlaced entry
        ((describes.leaders entry).mpr (program.calls_leader _ entry calls))
      simp only [of] at rooted
      simp only [Option.bind_some, rooted]
      rfl

theorem run_checked (start : Line) (steps : Nat) (state : Construction)
    (inv : Construction.Invariant program marks start state) :
    run program marks steps (of program state) =
      some ((Construction.run program marks steps state).map (of program)) := by
  induction steps generalizing state with
  | zero => rfl
  | succ steps ih =>
      by_cases idle : state.pending = []
      · simp [run, Construction.run, of, idle, Except.map]
      · obtain ⟨id, rest, block, statement, after, next, fresh, stacked, known, found, processed, stepped, done⟩ :=
          Construction.step_processed program marks describes start state inv idle
        have listed : block.lines ∈ state.blocks.map Block.lines :=
          List.mem_map_of_mem (List.mem_of_getElem? known)
        obtain ⟨_, _, _, ends⟩ := placed_bounds program marks describes _ inv.placed _ listed
        have checked := process_checked program marks describes { state with pending := rest } inv.placed id block
          statement known found ends
        have invAfter := Construction.processed_invariant describes start rest inv stacked block known done
        rw [processed] at checked
        simp only [of] at checked
        simp only [run, Construction.run, of, stacked, stepped, checked]
        exact ih after invAfter

end Described

end Draft

theorem build_checked (program : Program) (table : SymbolTable) (name : String) :
    buildChecked program table name = some (build program table name) := by
  cases collected : Landmarks.collect program with
  | error reason => simp [buildChecked, build, collected]
  | ok marks =>
      have describes := Landmarks.collect_describes program marks collected
      cases entry : entryLine? marks table name with
      | none => simp [buildChecked, build, collected, entry]
      | some start =>
          obtain ⟨function, _, last⟩ := (entry_line program marks describes table name start).mp entry
          have leader := (describes.leaders start).mpr (program.entry_leader function start last)
          have blank : (⟨.empty, List.replicate program.size none⟩ : Draft) = Draft.of program .empty := by
            rw [Draft.of, ownerTable]
            exact congrArg _ (List.eq_replicate_iff.mpr ⟨by simp, by simp [Construction.empty, blockContaining?]⟩).symm
          have rooted := Draft.add_root_checked program marks describes .empty
            ⟨by simp [Construction.empty], by simp [Construction.empty], by simp [Construction.empty]⟩ start leader
          have ran := Draft.run_checked program marks describes start program.size _
            (Construction.initial_invariant program marks start leader).1
          simp only [buildChecked, build, collected, entry, blank, rooted, ran, Option.bind_eq_bind, Option.bind_some]
          cases Construction.run program marks program.size (Construction.empty.addRoot program marks start) with
          | error reason => rfl
          | ok state => rfl

end FlowGraph

end ThreeAddress
