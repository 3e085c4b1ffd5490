import ThreeAddress.Symbol

set_option autoImplicit false

namespace ThreeAddress

inductive Immediate where
  | int8 (value : Int8)
  | uint8 (value : UInt8)
  | int (value : Int32)
  | uint (value : UInt32)
  | bool (value : Bool)
deriving DecidableEq, Repr

namespace Immediate

def ty : Immediate → ValueType
  | .int8 _ => .int8
  | .uint8 _ => .uint8
  | .int _ => .int
  | .uint _ => .uint
  | .bool _ => .bool

def text : Immediate → String
  | .int8 value => toString value.toInt ++ "i8"
  | .uint8 value => toString value.toNat ++ "u8"
  | .int value => toString value.toInt
  | .uint value => toString value.toNat ++ "u"
  | .bool true => "true"
  | .bool false => "false"

end Immediate

structure SymbolRef where
  id : SymbolId
  ty : ValueType
deriving DecidableEq, Repr

def SymbolRef.text (ref : SymbolRef) : String := "#" ++ SymbolId.text ref.id

inductive Operand where
  | immediate (value : Immediate)
  | symbol (ref : SymbolRef)
deriving DecidableEq, Repr

namespace Operand

def ty : Operand → ValueType
  | .immediate value => value.ty
  | .symbol ref => ref.ty

def text : Operand → String
  | .immediate value => value.text
  | .symbol ref => ref.text

def symbolId? : Operand → Option SymbolId
  | .immediate _ => none
  | .symbol ref => some ref.id

end Operand

end ThreeAddress
