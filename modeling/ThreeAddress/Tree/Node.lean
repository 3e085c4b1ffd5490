import ThreeAddress.Operand
import ThreeAddress.Tree.Kind

set_option autoImplicit false

/-!
Syntax trees. Each node has a kind and the static type that type checking gave it; kind and shape
are independent, so that a damaged tree can be represented too.
-/

namespace ThreeAddress

inductive Node where
  | leaf (kind : NodeKind) (ty : ValueType)
  | constant (kind : NodeKind) (ty : ValueType) (value : Immediate)
  | symbol (kind : NodeKind) (ty : ValueType) (id : SymbolId)
  | unary (kind : NodeKind) (ty : ValueType) (child : Node)
  | binary (kind : NodeKind) (ty : ValueType) (left right : Node)
deriving DecidableEq, Repr

namespace Node

def kind : Node → NodeKind
  | .leaf kind _ | .constant kind _ _ | .symbol kind _ _ | .unary kind _ _ | .binary kind _ _ _ => kind

def ty : Node → ValueType
  | .leaf _ ty | .constant _ ty _ | .symbol _ ty _ | .unary _ ty _ | .binary _ ty _ _ => ty

def empty : Node := .leaf .empty .void

def number (value : Immediate) : Node := .constant .number value.ty value

def identifier (id : SymbolId) (ty : ValueType) : Node := .symbol .identifier ty id

def list (kind : NodeKind) : List Node → Node
  | [] => empty
  | item :: rest => .binary kind .void item (list kind rest)

def isEmpty (node : Node) : Bool := node.kind == .empty

def child? : Node → Option Node
  | .unary _ _ child => some child
  | _ => none

def children? : Node → Option (Node × Node)
  | .binary _ _ left right => some (left, right)
  | _ => none

def symbol? : Node → Option SymbolId
  | .symbol _ _ id => some id
  | _ => none

def constant? : Node → Option Immediate
  | .constant _ _ value => some value
  | _ => none

def reference? (node : Node) : Option SymbolRef := node.symbol?.map fun id => ⟨id, node.ty⟩

/-- Items of the list of this kind that starts at a node. A node of another kind is the last item
itself, unless it is empty; a node of this kind without two children closes the list. -/
def items (kind : NodeKind) : Node → List Node
  | .binary own ty first rest =>
    if own = .empty then []
    else if own ≠ kind then [.binary own ty first rest]
    else first :: items kind rest
  | node => if node.kind = .empty ∨ node.kind = kind then [] else [node]

end Node

end ThreeAddress
