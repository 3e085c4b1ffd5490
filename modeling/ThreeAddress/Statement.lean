import ThreeAddress.Opcode
import ThreeAddress.Operand
import ThreeAddress.SymbolTable

set_option autoImplicit false

namespace ThreeAddress

structure Statement where
  width : Width
  opcode : Opcode
  first : Option Operand
  second : Option Operand
  result : Option Operand
deriving DecidableEq, Repr

namespace Statement

def bare (opcode : Opcode) : Statement := ⟨.void, opcode, none, none, none⟩

def conforms (statement : Statement) : Bool :=
  let signature := statement.opcode.signature
  signature.first.admits statement.first.isSome
    && signature.second.admits statement.second.isSome
    && signature.result.admits statement.result.isSome

def operands (statement : Statement) : List Operand :=
  statement.first.toList ++ statement.second.toList

def subject? (statement : Statement) : Option SymbolId := statement.first.bind Operand.symbolId?

def jumpTarget? (statement : Statement) : Option SymbolId :=
  if statement.opcode = .goto then statement.subject?
  else if statement.opcode.isConditionalJump then statement.result.bind Operand.symbolId?
  else none

def callee? (statement : Statement) : Option SymbolId :=
  if statement.opcode = .call then statement.subject? else none

def tracked? (table : SymbolTable) (operand : Option Operand) : Option SymbolId :=
  (operand.bind Operand.symbolId?).filter table.isTracked

def readsFirst (statement : Statement) (table : SymbolTable) : Bool :=
  decide (1 ≤ statement.opcode.arity) && (tracked? table statement.first).isSome

def readsSecond (statement : Statement) (table : SymbolTable) : Bool :=
  decide (statement.opcode.arity = 2) && (tracked? table statement.second).isSome

def writesResult (statement : Statement) (table : SymbolTable) : Bool :=
  statement.opcode.hasResult && (tracked? table statement.result).isSome

def reads (statement : Statement) (table : SymbolTable) : List SymbolId :=
  (if statement.readsFirst table then (tracked? table statement.first).toList else [])
    ++ if statement.readsSecond table then (tracked? table statement.second).toList else []

def writes (statement : Statement) (table : SymbolTable) : Option SymbolId :=
  if statement.writesResult table then tracked? table statement.result else none

def text (statement : Statement) : String :=
  statement.opcode.text ++ "." ++ statement.width.text
    ++ String.join (statement.operands.map fun operand => " " ++ operand.text)
    ++ match statement.result with
      | some result => " -> " ++ result.text
      | none => ""

end Statement

end ThreeAddress
