import ThreeAddress.Vocabulary

set_option autoImplicit false

namespace ThreeAddress

inductive Relation where
  | eq | ne | lt | gt | le | ge
deriving DecidableEq, Repr

namespace Relation

def all : List Relation := [.eq, .ne, .lt, .gt, .le, .ge]

def text : Relation → String
  | .eq => "eq"
  | .ne => "ne"
  | .lt => "lt"
  | .gt => "gt"
  | .le => "le"
  | .ge => "ge"

instance : Vocabulary Relation := ⟨all, text⟩

def negate : Relation → Relation
  | .eq => .ne
  | .ne => .eq
  | .lt => .ge
  | .ge => .lt
  | .gt => .le
  | .le => .gt

end Relation

/-- Conditions on two bit patterns: below and above are unsigned, less and greater signed. -/
inductive Condition where
  | equal | notEqual
  | below | notBelow | belowOrEqual | above
  | less | greaterOrEqual | lessOrEqual | greater
deriving DecidableEq, Repr

namespace Condition

def text : Condition → String
  | .equal => "e"
  | .notEqual => "ne"
  | .below => "b"
  | .notBelow => "nb"
  | .belowOrEqual => "be"
  | .above => "a"
  | .less => "l"
  | .greaterOrEqual => "ge"
  | .lessOrEqual => "le"
  | .greater => "g"

def testing (relation : Relation) (signed : Bool) : Condition :=
  match relation with
  | .eq => .equal
  | .ne => .notEqual
  | .lt => if signed then .less else .below
  | .gt => if signed then .greater else .above
  | .le => if signed then .lessOrEqual else .belowOrEqual
  | .ge => if signed then .greaterOrEqual else .notBelow

end Condition

inductive BinaryOp where
  | add | sub | mul | div | idiv | mod | imod | and | or
deriving DecidableEq, Repr

def BinaryOp.text : BinaryOp → String
  | .add => "add"
  | .sub => "sub"
  | .mul => "mul"
  | .div => "div"
  | .idiv => "idiv"
  | .mod => "mod"
  | .imod => "imod"
  | .and => "and"
  | .or => "or"

inductive UnaryOp where
  | not | neg
deriving DecidableEq, Repr

def UnaryOp.text : UnaryOp → String
  | .not => "not"
  | .neg => "neg"

inductive Slot where
  | unused | required | optional
deriving DecidableEq, Repr

namespace Slot

def all : List Slot := [.unused, .required, .optional]

def text : Slot → String
  | .unused => "unused"
  | .required => "required"
  | .optional => "optional"

instance : Vocabulary Slot := ⟨all, text⟩

def admits : Slot → Bool → Bool
  | .unused, filled => !filled
  | .required, filled => filled
  | .optional, _ => true

end Slot

structure Signature where
  first : Slot
  second : Slot
  result : Slot
deriving DecidableEq, Repr

inductive Opcode where
  | func | ret | param | call | label | goto
  | assign | load | store
  | binary (op : BinaryOp)
  | unary (op : UnaryOp)
  | jumpIf (condition : Condition)
  | jumpNonzero | jumpZero
  | setIf (condition : Condition)
  | coerce
deriving DecidableEq, Repr

namespace Opcode

def structural : List Opcode := [.func, .ret, .param, .call, .label, .goto]

def movement : List Opcode := [.assign, .load, .store]

def computing : List Opcode :=
  [.add, .sub, .mul, .div, .idiv, .mod, .imod, .and, .or].map binary ++ [.unary .not, .unary .neg]

def jumping : List Opcode :=
  [.equal, .notEqual, .below, .less, .notBelow, .greaterOrEqual, .belowOrEqual, .lessOrEqual,
    .above, .greater].map jumpIf ++ [.jumpNonzero, .jumpZero]

def setting : List Opcode :=
  [.equal, .notEqual, .greater, .greaterOrEqual, .less, .lessOrEqual, .above, .notBelow,
    .below, .belowOrEqual].map setIf

def all : List Opcode := structural ++ movement ++ computing ++ jumping ++ setting ++ [.coerce]

def text : Opcode → String
  | .func => "func"
  | .ret => "return"
  | .param => "param"
  | .call => "call"
  | .label => "label"
  | .goto => "goto"
  | .assign => "assign"
  | .load => "load"
  | .store => "store"
  | .binary op => op.text
  | .unary op => op.text
  | .jumpIf condition => "j" ++ condition.text
  | .jumpNonzero => "jnz"
  | .jumpZero => "jz"
  | .setIf condition => "set" ++ condition.text
  | .coerce => "coerce"

instance : Vocabulary Opcode := ⟨all, text⟩

def signature : Opcode → Signature
  | .func | .param | .label | .goto => ⟨.required, .unused, .unused⟩
  | .ret => ⟨.optional, .unused, .unused⟩
  | .call => ⟨.required, .unused, .optional⟩
  | .assign | .unary _ | .coerce | .jumpZero | .jumpNonzero => ⟨.required, .unused, .required⟩
  | .load | .store | .binary _ | .jumpIf _ | .setIf _ => ⟨.required, .required, .required⟩

/-- Number of operands that may hold a value. The operand of a call, a label or a goto names a
function or a label instead. -/
def arity : Opcode → Nat
  | .call | .label | .goto => 0
  | .func | .ret | .param | .assign | .unary _ | .coerce | .jumpZero | .jumpNonzero => 1
  | .load | .store | .binary _ | .jumpIf _ | .setIf _ => 2

def hasResult (opcode : Opcode) : Bool := opcode.signature.result != .unused

def isConditionalJump : Opcode → Bool
  | .jumpIf _ | .jumpNonzero | .jumpZero => true
  | _ => false

def isJump : Opcode → Bool
  | .call | .goto => true
  | opcode => opcode.isConditionalJump

def jump (relation : Relation) (signed : Bool) : Opcode := .jumpIf (.testing relation signed)

def set (relation : Relation) (signed : Bool) : Opcode := .setIf (.testing relation signed)

end Opcode

end ThreeAddress
