import ThreeAddress.DataFlow
import ThreeAddress.Flow.Graph

set_option autoImplicit false

namespace ThreeAddress

abbrev LiveSet := FactSet SymbolId

structure Liveness where
  gen : List LiveSet
  kill : List LiveSet
  facts : LineFacts SymbolId

namespace Liveness

def reads (program : Program) (table : SymbolTable) : List LiveSet :=
  program.statements.map fun statement => Std.ExtTreeSet.ofList (statement.reads table)

def writes (program : Program) (table : SymbolTable) : List LiveSet :=
  program.statements.map fun statement => Std.ExtTreeSet.ofList (statement.writes table).toList

def analysis (program : Program) (table : SymbolTable) : GenKill SymbolId :=
  ⟨reads program table, writes program table, ∅⟩

def compute (program : Program) (table : SymbolTable) (graph : FlowGraph) : Liveness :=
  ⟨reads program table, writes program table,
    (analysis program table).solve graph.controlFlow program.size⟩

def refine (liveness : Liveness) (graph : FlowGraph) : Bool × Liveness :=
  let sweep := GenKill.sweep ⟨liveness.gen, liveness.kill, ∅⟩ graph.controlFlow liveness.facts
  (sweep.changed, { liveness with facts := sweep.facts })

def gen? (liveness : Liveness) (line : Line) : Option LiveSet := liveness.gen[line]?

def kill? (liveness : Liveness) (line : Line) : Option LiveSet := liveness.kill[line]?

def liveIn? (liveness : Liveness) (line : Line) : Option LiveSet := liveness.facts.before? line

def liveOut? (liveness : Liveness) (line : Line) : Option LiveSet := liveness.facts.after? line

def isReachable (liveness : Liveness) (line : Line) : Bool := (liveness.liveIn? line).isSome

def isLiveAt (liveness : Liveness) (line : Line) (id : SymbolId) : Bool :=
  (liveness.liveOut? line).any (·.contains id) || (liveness.liveIn? line).any (·.contains id)

def liveAt (liveness : Liveness) (line : Line) : LiveSet :=
  (liveness.liveIn? line).getD ∅ ∪ (liveness.liveOut? line).getD ∅

def liveAfter (liveness : Liveness) (line : Line) : LiveSet := (liveness.liveOut? line).getD ∅

end Liveness

end ThreeAddress
