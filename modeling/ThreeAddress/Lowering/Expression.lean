import ThreeAddress.Lowering.Basic

set_option autoImplicit false

/-!
Lowering of expressions. Literals and names are used in place; all else is computed into a fresh
temporary. Nodes that are no expressions, and expressions that lack their operands, have no value
and give no code.
-/

namespace ThreeAddress

namespace Lower

def require (kind : NodeKind) (value : Lower (Option Operand)) : Lower Operand := do
  match ← value with
  | some operand => return operand
  | none => throw (.valueExpected kind)

def coerce (value : Operand) (ty : ValueType) : Lower Operand := do
  let result ← freshTemporary ty
  discard (emit ⟨ty.width, .coerce, some value, none, some (.symbol result)⟩)
  return .symbol result

def widen (value : Operand) (ty : ValueType) : Lower Operand :=
  if value.ty.widensTo ty then coerce value ty else return value

/-- Type in which an operation on two operands is computed: the type wanted if it is wide enough for
both, otherwise one that the operands decide. -/
def operationType (wanted : Option ValueType) (left right : ValueType) : ValueType :=
  let common := left.common right
  match wanted with
  | none => common
  | some ty => if common.bytes ≤ ty.bytes then ty else ty.common common

def operands (wanted : Option ValueType) (left right : Lower Operand) :
    Lower (Operand × Operand × ValueType) := do
  let left ← left
  let right ← right
  let ty := operationType wanted left.ty right.ty
  let left ← widen left ty
  let right ← widen right ty
  return (left, right, ty)

def comparison (relation : Relation) (left right : Lower Operand) : Lower Operand := do
  let (left, right, ty) ← operands none left right
  let result ← freshTemporary .bool
  discard (emit ⟨ty.width, .set relation ty.isSigned, some left, some right, some (.symbol result)⟩)
  return .symbol result

def scalar? (ty : ValueType) : Option ValueType := if ty.isScalar then some ty else none

def arithmetic (operator : ArithmeticOperator) (ty : ValueType) (left right : Lower Operand) :
    Lower Operand := do
  let (left, right, ty) ← operands (scalar? ty) left right
  let result ← freshTemporary ty
  discard (emit ⟨ty.width, .binary (operator.select ty.isSigned), some left, some right,
    some (.symbol result)⟩)
  return .symbol result

def applyUnary (operator : UnaryOp) (ty : ValueType) (value : Operand) : Lower Operand := do
  let ty := (scalar? ty).getD value.ty
  let value ← widen value ty
  let result ← freshTemporary ty
  discard (emit ⟨ty.width, .unary operator, some value, none, some (.symbol result)⟩)
  return .symbol result

/-- A unary operator or a cast in an expression of type `ty`. A plus sign only widens, and a cast to
the value's own type, or to none that is scalar, does nothing. -/
def unary (operator : UnaryOperator) (ty : ValueType) (value : Lower Operand) : Lower Operand := do
  let value ← value
  match operator with
  | .not => applyUnary .not ty value
  | .minus => applyUnary .neg ty value
  | .plus => widen value ty
  | .coercion => if ty.isScalar ∧ value.ty ≠ ty then coerce value ty else return value

def element (base : Node) (index : Lower Operand) : Lower (Option (SymbolRef × Operand)) :=
  match base.reference? with
  | none => return none
  | some array => do return some (array, ← index)

def readElement (ty : ValueType) (base : Node) (index : Lower Operand) : Lower (Option Operand) := do
  match ← element base index with
  | none => return none
  | some (array, index) =>
    let ty := array.ty.element?.getD ty
    let result ← freshTemporary ty
    discard (emit ⟨ty.width, .load, some (.symbol array), some index, some (.symbol result)⟩)
    return some (.symbol result)

def argument (formal : Option ValueType) (value : Lower Operand) : Lower Operand := do
  let value ← value
  match formal with
  | some ty => widen value ty
  | none => return value

/-- The arguments that start at a node of this kind: an argument list, nothing, or a last argument
by itself. -/
def argumentsFrom (kind : NodeKind) (formals : List ValueType) (list : Lower (List Operand))
    (last : Lower Operand) : Lower (List Operand) :=
  match kind with
  | .empty => return []
  | .arguments => list
  | _ => do return [← argument formals.head? last]

def pass : List Operand → Lower Unit
  | [] => return ()
  | value :: rest => do
    discard (emit ⟨value.ty.width, .param, some value, none, none⟩)
    pass rest

/-- Calls the function that a node names. All arguments are computed before the first is passed, so
the parameters of calls inside them never mix with these. Only a scalar result is kept. -/
def callWith (callee : Node) (arguments : List ValueType → Lower (List Operand)) :
    Lower (Option Operand) :=
  match callee.reference? with
  | none => return none
  | some function => do
    let formals ← parameterTypes function.id
    let actuals ← arguments formals
    pass actuals
    let result ← if function.ty.isScalar then some <$> freshTemporary function.ty else pure none
    let result := result.map Operand.symbol
    discard (emit ⟨function.ty.width, .call, some (.symbol function), none, result⟩)
    return result

mutual

def value : Node → Lower (Option Operand)
  | .leaf _ _ => return none
  | .constant kind _ literal => return if kind = .number then some (.immediate literal) else none
  | .symbol kind ty id => return if kind = .identifier then some (.symbol ⟨id, ty⟩) else none
  | .unary kind ty child =>
    match kind with
    | .unary operator => some <$> unary operator ty (require child.kind (value child))
    | _ => return none
  | .binary kind ty left right =>
    match kind with
    | .relational relation =>
      some <$> comparison relation (require left.kind (value left)) (require right.kind (value right))
    | .arithmetic operator =>
      some <$> arithmetic operator ty (require left.kind (value left))
        (require right.kind (value right))
    | .elementRead => readElement ty left (require right.kind (value right))
    | .call =>
      callWith left fun formals =>
        argumentsFrom right.kind formals (arguments right formals)
          (require right.kind (value right))
    | _ => return none

def arguments : Node → List ValueType → Lower (List Operand)
  | .binary _ _ item rest, formals => do
    let first ← argument formals.head? (require item.kind (value item))
    let others ← argumentsFrom rest.kind formals.tail (arguments rest formals.tail)
      (require rest.kind (value rest))
    return first :: others
  | _, _ => return []

end

def valueOf (node : Node) : Lower Operand := require node.kind (value node)

def argumentsOf (node : Node) (formals : List ValueType) : Lower (List Operand) :=
  argumentsFrom node.kind formals (arguments node formals) (valueOf node)

def passAll (node : Node) : Lower Unit := do pass (← argumentsOf node [])

def call : Node → Lower (Option Operand)
  | .binary _ _ callee list => callWith callee (argumentsOf list)
  | _ => return none

def elementRead : Node → Lower (Option Operand)
  | .binary _ ty base index => readElement ty base (valueOf index)
  | _ => return none

def elementWrite : Node → Lower (Option (SymbolRef × Operand))
  | .binary _ _ base index => element base (valueOf index)
  | _ => return none

def binaryOperator (node : Node) : Lower (Option Operand) :=
  if node.kind.isBinaryOperator then value node else return none

def unaryOperator (node : Node) : Lower (Option Operand) :=
  if node.kind.isUnaryOperator then value node else return none

end Lower

end ThreeAddress
