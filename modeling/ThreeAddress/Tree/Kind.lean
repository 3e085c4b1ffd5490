import ThreeAddress.Opcode

set_option autoImplicit false

namespace ThreeAddress

inductive ArithmeticOperator where
  | add | sub | or | mul | div | idiv | mod | and
deriving DecidableEq, Repr

def ArithmeticOperator.select : ArithmeticOperator → Bool → BinaryOp
  | .add, _ => .add
  | .sub, _ => .sub
  | .mul, _ => .mul
  | .div, signed | .idiv, signed => if signed then .idiv else .div
  | .mod, signed => if signed then .imod else .mod
  | .and, _ => .and
  | .or, _ => .or

inductive UnaryOperator where
  | not | plus | minus | coercion
deriving DecidableEq, Repr

inductive NodeKind where
  | unknown | error
  | statementList | assignment | conditional | branches | loop
  | elementWrite | elementRead
  | ret | call | arguments
  | relational (relation : Relation)
  | arithmetic (operator : ArithmeticOperator)
  | number | identifier | empty
  | unary (operator : UnaryOperator)
deriving DecidableEq, Repr

namespace NodeKind

def all : List NodeKind :=
  [.unknown, .error, .statementList, .assignment, .conditional, .branches, .loop,
    .elementWrite, .elementRead, .ret, .call, .arguments]
    ++ [.eq, .lt, .gt, .le, .ge, .ne].map relational
    ++ [.add, .sub, .or, .mul, .div, .idiv, .mod, .and].map arithmetic
    ++ [.number, .identifier, .empty]
    ++ [.not, .plus, .minus, .coercion].map unary

def text : NodeKind → String
  | .unknown => "unknown"
  | .error => "error"
  | .statementList => "statement_list"
  | .assignment => "assignment"
  | .conditional => "if"
  | .branches => "if_targets"
  | .loop => "while"
  | .elementWrite => "larray"
  | .elementRead => "rarray"
  | .ret => "return"
  | .call => "function_call"
  | .arguments => "expr_list"
  | .relational .eq => "rel_equal"
  | .relational .lt => "rel_lt"
  | .relational .gt => "rel_gt"
  | .relational .le => "rel_lte"
  | .relational .ge => "rel_gte"
  | .relational .ne => "rel_not_equal"
  | .arithmetic .add => "add"
  | .arithmetic .sub => "sub"
  | .arithmetic .or => "or"
  | .arithmetic .mul => "mul"
  | .arithmetic .div => "div"
  | .arithmetic .idiv => "idiv"
  | .arithmetic .mod => "mod"
  | .arithmetic .and => "and"
  | .number => "num"
  | .identifier => "id"
  | .empty => "empty"
  | .unary .not => "not"
  | .unary .plus => "sign_plus"
  | .unary .minus => "sign_minus"
  | .unary .coercion => "coercion"

instance : Vocabulary NodeKind := ⟨all, text⟩

def relation? : NodeKind → Option Relation
  | .relational relation => some relation
  | _ => none

def isBinaryOperator : NodeKind → Bool
  | .relational _ | .arithmetic _ => true
  | _ => false

def isUnaryOperator : NodeKind → Bool
  | .unary _ => true
  | _ => false

end NodeKind

end ThreeAddress
