import ThreeAddress.Flow.ControlFlow
import ThreeAddress.Flow.Landmarks

set_option autoImplicit false

namespace ThreeAddress

structure Block where
  lines : LineRange
  next : Successors BlockId
  parents : List BlockId
deriving DecidableEq, Repr

namespace Block

def fresh (lines : LineRange) : Block := ⟨lines, .terminated, []⟩

def children (block : Block) : List BlockId := block.next.toList

def addParent (parent : BlockId) (block : Block) : Block :=
  { block with parents := block.parents ++ [parent] }

end Block

inductive Diagnostic where
  | fallsOffEnd (line : Line)
deriving DecidableEq, Repr

namespace Diagnostic

def line : Diagnostic → Line
  | .fallsOffEnd line => line

def message : Diagnostic → String
  | .fallsOffEnd line =>
    s!"control flows off the end of a function without a `return` after line {line}"

end Diagnostic

structure FlowGraph where
  blocks : List Block
  roots : List BlockId
  landmarks : Landmarks
  diagnostics : List Diagnostic

namespace FlowGraph

def blockContaining? (blocks : List Block) (line : Line) : Option BlockId :=
  blocks.findIdx? fun block => block.lines.contains line

/-- A graph in progress. Pending blocks are built but not linked, the top of the stack first. -/
structure Construction where
  blocks : List Block
  roots : List BlockId
  pending : List BlockId
  diagnostics : List Diagnostic

namespace Construction

def empty : Construction := ⟨[], [], [], []⟩

def blockAt (program : Program) (marks : Landmarks) (start : Line) : StateM Construction BlockId :=
  fun state =>
    match blockContaining? state.blocks start with
    | some id => (id, state)
    | none =>
      (state.blocks.length,
        { state with
          blocks := state.blocks ++ [.fresh ⟨start, marks.lastLine program.size start⟩]
          pending := state.blocks.length :: state.pending })

def addRoot (program : Program) (marks : Landmarks) (state : Construction) (start : Line) :
    Construction :=
  let (id, built) := blockAt program marks start state
  if id ∈ built.roots then built else { built with roots := built.roots ++ [id] }

def link (state : Construction) (id : BlockId) (next : Successors BlockId) : Construction :=
  let blocks := next.toList.foldl
    (fun blocks child => blocks.modify child (Block.addParent id)) state.blocks
  { state with blocks := blocks.modify id fun block => { block with next := next } }

/-- Lines that follow a block with this last line and statement. Control that would run into the
next function, or past the end of the program, ends there and is reported. -/
def following (program : Program) (marks : Landmarks) (last : Line) (statement : Statement) :
    Except FlowError (Successors Line × List Diagnostic) :=
  match statement.branching.resolve (marks.resolve last) with
  | .error reason => .error reason
  | .ok branching =>
    if branching.fallsThrough ∧ (program.get? (last + 1)).all fun after => after.opcode = .func then
      .ok ({ branching with fallsThrough := false }.successors (last + 1), [.fallsOffEnd last])
    else .ok (branching.successors (last + 1), [])

def calledEntry? (marks : Landmarks) (statement : Statement) : Option Line :=
  statement.callee?.bind fun callee => marks.entries[callee]?

def process (program : Program) (marks : Landmarks) (state : Construction) (id : BlockId)
    (last : Line) (statement : Statement) : Except FlowError Construction :=
  match following program marks last statement with
  | .error reason => .error reason
  | .ok (lines, found) =>
    let (next, built) := lines.mapM (blockAt program marks)
      { state with diagnostics := state.diagnostics ++ found }
    let linked := built.link id next
    match calledEntry? marks statement with
    | some start => .ok (linked.addRoot program marks start)
    | none => .ok linked

def step (program : Program) (marks : Landmarks) (state : Construction) :
    Except FlowError Construction :=
  match state.pending with
  | [] => .ok state
  | id :: rest =>
    match state.blocks[id]? with
    | none => .ok { state with pending := rest }
    | some block =>
      match program.get? block.lines.last with
      | none => .ok { state with pending := rest }
      | some statement =>
        process program marks { state with pending := rest } id block.lines.last statement

def run (program : Program) (marks : Landmarks) :
    Nat → Construction → Except FlowError Construction
  | 0, state => .ok state
  | steps + 1, state =>
    if state.pending.isEmpty then .ok state
    else
      match step program marks state with
      | .ok after => run program marks steps after
      | .error reason => .error reason

end Construction

def entryLine? (marks : Landmarks) (table : SymbolTable) (name : String) : Option Line :=
  (table.findFunction? name).bind fun function => marks.entries[function]?

/-- Builds the graph of a program from the function with this name. Functions called from a block
that is reached become roots; the call itself falls through. Each block is linked once and no two
blocks share a line, so the number of lines bounds the steps. -/
def build (program : Program) (table : SymbolTable) (entry : String) : Except FlowError FlowGraph :=
  match Landmarks.collect program with
  | .error reason => .error reason
  | .ok marks =>
    match entryLine? marks table entry with
    | none => .error (.noEntryPoint entry)
    | some start =>
      match Construction.run program marks program.size
        (Construction.empty.addRoot program marks start) with
      | .error reason => .error reason
      | .ok state => .ok ⟨state.blocks, state.roots, marks, state.diagnostics⟩

def blockOf? (graph : FlowGraph) (line : Line) : Option BlockId :=
  blockContaining? graph.blocks line

def isReachable (graph : FlowGraph) (line : Line) : Bool := (graph.blockOf? line).isSome

def entry? (graph : FlowGraph) : Option BlockId := graph.roots.head?

def controlFlow (graph : FlowGraph) : ControlFlow where
  blockCount := graph.blocks.length
  roots := graph.roots
  successors id :=
    match graph.blocks[id]? with
    | some block => block.next
    | none => .terminated
  lines id :=
    match graph.blocks[id]? with
    | some block => block.lines
    | none => ⟨1, 0⟩

def reversePostOrder (graph : FlowGraph) : List BlockId := graph.controlFlow.reversePostOrder

def idsText (ids : List BlockId) : String := ", ".intercalate (ids.map toString)

def blockText (graph : FlowGraph) (id : BlockId) (block : Block) : String :=
  (if graph.entry? = some id then "(ENTRY) " else "")
    ++ s!"Block #{id} [{block.lines.first}, {block.lines.last}]:\n"
    ++ s!"  children: [{idsText block.children}]\n"
    ++ s!"  parents: [{idsText block.parents}]\n"

def text (graph : FlowGraph) : String :=
  String.join (graph.reversePostOrder.filterMap fun id =>
    graph.blocks[id]?.map (graph.blockText id))

end FlowGraph

end ThreeAddress
