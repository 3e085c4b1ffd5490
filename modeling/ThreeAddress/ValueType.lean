import ThreeAddress.Vocabulary

set_option autoImplicit false

namespace ThreeAddress

inductive Width where
  | void | byte | word | long | quad
deriving DecidableEq, Repr

namespace Width

def all : List Width := [.void, .byte, .word, .long, .quad]

def text : Width → String
  | .void => "void"
  | .byte => "byte"
  | .word => "word"
  | .long => "long"
  | .quad => "quad"

def bytes : Width → Nat
  | .void => 0
  | .byte => 1
  | .word => 2
  | .long => 4
  | .quad => 8

instance : Vocabulary Width := ⟨all, text⟩

end Width

inductive ValueType where
  | unknown | error | void
  | int | intArray | int8 | int8Array
  | uint | uintArray | uint8 | uint8Array
  | bool
deriving DecidableEq, Repr

namespace ValueType

def all : List ValueType :=
  [.unknown, .error, .void, .int, .intArray, .int8, .int8Array,
    .uint, .uintArray, .uint8, .uint8Array, .bool]

def text : ValueType → String
  | .unknown => "unknown"
  | .error => "error"
  | .void => "void"
  | .int => "int"
  | .intArray => "int[]"
  | .int8 => "int8"
  | .int8Array => "int8[]"
  | .uint => "unsigned"
  | .uintArray => "unsigned[]"
  | .uint8 => "unsigned8"
  | .uint8Array => "unsigned8[]"
  | .bool => "bool"

instance : Vocabulary ValueType := ⟨all, text⟩

def element? : ValueType → Option ValueType
  | .intArray => some .int
  | .int8Array => some .int8
  | .uintArray => some .uint
  | .uint8Array => some .uint8
  | _ => none

def isArray (ty : ValueType) : Bool := ty.element?.isSome

def isSigned : ValueType → Bool
  | .int | .int8 | .intArray | .int8Array => true
  | _ => false

def isScalar : ValueType → Bool
  | .int | .int8 | .uint | .uint8 | .bool => true
  | _ => false

def width : ValueType → Width
  | .int | .uint => .long
  | .int8 | .uint8 | .bool => .byte
  | .intArray | .int8Array | .uintArray | .uint8Array => .quad
  | .unknown | .error | .void => .void

def bytes (ty : ValueType) : Nat := ty.width.bytes

def common (a b : ValueType) : ValueType :=
  if a = b then a else if a = .uint ∨ b = .uint then .uint else .int

/-- Whether a value of the first type is coerced when it is used as one of the second. Only scalars
are, and only to a larger width: values are never narrowed implicitly. -/
def widensTo (a b : ValueType) : Bool := a.isScalar && b.isScalar && a.bytes < b.bytes

end ValueType

end ThreeAddress
