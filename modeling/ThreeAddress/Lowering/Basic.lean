import ThreeAddress.Program
import ThreeAddress.Tree.Node

set_option autoImplicit false

namespace ThreeAddress

inductive Allocation where
  | temporary | label
deriving DecidableEq, Repr

namespace Allocation

def text : Allocation → String
  | .temporary => "temporary"
  | .label => "label"

def name (allocation : Allocation) (number : Nat) : String :=
  match allocation with
  | .temporary => "&" ++ toString number
  | .label => "@" ++ toString number

end Allocation

inductive LoweringError where
  | noEnclosingFunction (allocation : Allocation)
  | notAFunction (id : SymbolId)
  | valueExpected (kind : NodeKind)
  | notAssignable (kind : NodeKind)
  | malformed (cause : MalformedStatement)
deriving DecidableEq, Repr

def LoweringError.message : LoweringError → String
  | .noEnclosingFunction allocation =>
    s!"cannot allocate a {allocation.text} outside of any function"
  | .notAFunction id => s!"symbol {id} is not a function"
  | .valueExpected kind => s!"expected a value from this `{kind.text}` node, found none"
  | .notAssignable kind => s!"cannot assign to a `{kind.text}` node"
  | .malformed cause => cause.message

structure Lowering where
  table : SymbolTable
  program : Program
  temporaries : Nat
  labels : Nat
  function : Option SymbolId
deriving DecidableEq, Repr

def Lowering.start (table : SymbolTable) (program : Program) : Lowering :=
  ⟨table, program, 0, 0, none⟩

abbrev Lower := EStateM LoweringError Lowering

namespace Lower

def enterFunction (function : SymbolId) : Lower (Option SymbolId) := fun state =>
  .ok state.function { state with function := some function }

def leaveFunction : Lower (Option SymbolId) := fun state =>
  .ok state.function { state with function := none }

def emit (statement : Statement) : Lower Line := fun state =>
  match state.program.append statement with
  | .ok (line, program) => .ok line { state with program := program }
  | .error cause => .error (.malformed cause) state

def emitLabel (label : SymbolRef) : Lower Unit :=
  discard (emit ⟨.void, .label, some (.symbol label), none, none⟩)

def emitGoto (label : SymbolRef) : Lower Unit :=
  discard (emit ⟨.void, .goto, some (.symbol label), none, none⟩)

def freshTemporary (ty : ValueType) : Lower SymbolRef := fun state =>
  match state.function with
  | none => .error (.noEnclosingFunction .temporary) state
  | some function =>
    match state.table.addTemporary function (Allocation.temporary.name state.temporaries) ty with
    | none => .error (.notAFunction function) state
    | some (id, table) =>
      .ok ⟨id, ty⟩ { state with table := table, temporaries := state.temporaries + 1 }

def freshLabel : Lower SymbolRef := fun state =>
  match state.function with
  | none => .error (.noEnclosingFunction .label) state
  | some function =>
    match state.table.addLabel function (Allocation.label.name state.labels) with
    | none => .error (.notAFunction function) state
    | some (id, table) =>
      .ok ⟨id, .void⟩ { state with table := table, labels := state.labels + 1 }

def returnType? : Lower (Option ValueType) := fun state =>
  .ok ((state.function.bind state.table.get?).map Symbol.ty) state

def parameterTypes (function : SymbolId) : Lower (List ValueType) := fun state =>
  .ok (state.table.parameterTypes function) state

end Lower

end ThreeAddress
