import ThreeAddress.Liveness
import ThreeAddress.Lowering.Statement
import ThreeAddress.Tree.Bodies

set_option autoImplicit false

namespace ThreeAddress

structure Options where
  entryPoint : String := "main"
deriving DecidableEq, Repr

structure Intermediate where
  program : Program
  graph : FlowGraph
  liveness : Liveness

inductive GenerateError where
  | lowering (cause : LoweringError)
  | flow (cause : FlowError)
deriving DecidableEq, Repr

def GenerateError.message : GenerateError → String
  | .lowering cause => cause.message
  | .flow cause => cause.message

def analyse (program : Program) (table : SymbolTable) (options : Options) :
    Except GenerateError Intermediate :=
  match FlowGraph.build program table options.entryPoint with
  | .error cause => .error (.flow cause)
  | .ok graph => .ok ⟨program, graph, Liveness.compute program table graph⟩

/-- Lowers every function of the table, in ascending order of ids, and analyses the result. The
table comes back with the temporaries and labels that were allocated, also if lowering failed
half-way. -/
def generate (bodies : Bodies) (table : SymbolTable) (options : Options) :
    Except GenerateError Intermediate × SymbolTable :=
  match Lower.functions bodies.body table.functions (Lowering.start table .empty) with
  | .error cause state => (.error (.lowering cause), state.table)
  | .ok _ state => (analyse state.program state.table options, state.table)

end ThreeAddress
