import ThreeAddress.Symbol

set_option autoImplicit false

namespace ThreeAddress

structure Scope where
  function : SymbolId
  parameters : List SymbolId
  locals : List SymbolId
deriving DecidableEq, Repr

def Scope.enlist (scope : Scope) (kind : SymbolKind) (id : SymbolId) : Scope :=
  match kind with
  | .parameter => { scope with parameters := scope.parameters ++ [id] }
  | .variable | .temporary => { scope with locals := scope.locals ++ [id] }
  | .function | .label => scope

/-- The symbol with id `k + 1` stands at position `k`. There is one scope for each function, in
order of the functions' ids. -/
structure SymbolTable where
  symbols : List Symbol
  scopes : List Scope
deriving DecidableEq, Repr

namespace SymbolTable

def empty : SymbolTable := ⟨[], []⟩

def size (table : SymbolTable) : Nat := table.symbols.length

def isEmpty (table : SymbolTable) : Bool := table.symbols.isEmpty

def get? (table : SymbolTable) : SymbolId → Option Symbol
  | 0 => none
  | position + 1 => table.symbols[position]?

def scope? (table : SymbolTable) (function : SymbolId) : Option Scope :=
  table.scopes.find? fun scope => scope.function == function

def nextId (table : SymbolTable) : SymbolId := table.size + 1

def push (table : SymbolTable) (symbol : Symbol) : SymbolTable :=
  { table with symbols := table.symbols ++ [symbol] }

def addGlobal (table : SymbolTable) (name : String) (ty : ValueType) : SymbolId × SymbolTable :=
  (table.nextId, table.push ⟨name, ty, .variable, none⟩)

def addFunction (table : SymbolTable) (name : String) (ty : ValueType) : SymbolId × SymbolTable :=
  (table.nextId,
    { table.push ⟨name, ty, .function, none⟩ with
      scopes := table.scopes ++ [⟨table.nextId, [], []⟩] })

def addOwned (table : SymbolTable) (function : SymbolId) (kind : SymbolKind) (name : String)
    (ty : ValueType) : Option (SymbolId × SymbolTable) :=
  match table.scope? function with
  | none => none
  | some _ =>
    some (table.nextId,
      { table.push ⟨name, ty, kind, some function⟩ with
        scopes := table.scopes.map fun scope =>
          if scope.function = function then scope.enlist kind table.nextId else scope })

def addParameter (table : SymbolTable) (function : SymbolId) (name : String) (ty : ValueType) :
    Option (SymbolId × SymbolTable) :=
  table.addOwned function .parameter name ty

def addVariable (table : SymbolTable) (function : SymbolId) (name : String) (ty : ValueType) :
    Option (SymbolId × SymbolTable) :=
  table.addOwned function .variable name ty

def addTemporary (table : SymbolTable) (function : SymbolId) (name : String) (ty : ValueType) :
    Option (SymbolId × SymbolTable) :=
  table.addOwned function .temporary name ty

def addLabel (table : SymbolTable) (function : SymbolId) (name : String) :
    Option (SymbolId × SymbolTable) :=
  table.addOwned function .label name .void

def functions (table : SymbolTable) : List SymbolId := table.scopes.map Scope.function

def findFunction? (table : SymbolTable) (name : String) : Option SymbolId :=
  table.functions.find? fun function => (table.get? function).any fun symbol => symbol.name == name

def parameters? (table : SymbolTable) (function : SymbolId) : Option (List SymbolId) :=
  (table.scope? function).map Scope.parameters

def locals? (table : SymbolTable) (function : SymbolId) : Option (List SymbolId) :=
  (table.scope? function).map Scope.locals

def parameterTypes (table : SymbolTable) (function : SymbolId) : List ValueType :=
  ((table.parameters? function).getD []).filterMap fun id => (table.get? id).map Symbol.ty

def isGlobal (table : SymbolTable) (id : SymbolId) : Bool :=
  (table.get? id).any fun symbol => symbol.owner.isNone

def isTracked (table : SymbolTable) (id : SymbolId) : Bool :=
  (table.get? id).any Symbol.isTracked

def listFrom (table : SymbolTable) (known : Nat) : List (SymbolId × Symbol) :=
  (table.symbols.zipIdx.map fun (symbol, position) => (position + 1, symbol)).drop known

end SymbolTable

end ThreeAddress
