import ThreeAddress.Lowering.Expression

set_option autoImplicit false

/-!
Lowering of statements and of whole functions. Expressions in the place of statements, calls
apart, are ignored, and so are statements that lack their parts.
-/

namespace ThreeAddress

inductive Destination where
  | variable (target : SymbolRef)
  | element (array : SymbolRef) (index : Operand)
deriving DecidableEq, Repr

namespace Lower

def destination? (node : Node) : Lower (Option Destination) :=
  match node.kind with
  | .identifier => return node.reference?.map .variable
  | .elementWrite => do
    return (← elementWrite node).map fun (array, index) => .element array index
  | _ => return none

def destination (node : Node) : Lower Destination := do
  match ← destination? node with
  | some place => return place
  | none => throw (.notAssignable node.kind)

def store (value : Operand) : Destination → Lower Unit
  | .variable target => do
    let value ← widen value target.ty
    discard (emit ⟨target.ty.width, .assign, some value, none, some (.symbol target)⟩)
  | .element array index => do
    let ty := array.ty.element?.getD value.ty
    let value ← widen value ty
    discard (emit ⟨ty.width, .store, some value, some index, some (.symbol array)⟩)

def assignment (target source : Node) : Lower Unit := do
  let value ← valueOf source
  let place ← destination target
  store value place

def jumpUnlessRelated (relation : Relation) (left right : Node) (label : SymbolRef) : Lower Unit := do
  let (left, right, ty) ← operands none (valueOf left) (valueOf right)
  discard (emit ⟨ty.width, .jump relation.negate ty.isSigned, some left, some right,
    some (.symbol label)⟩)

def jumpUnlessValue (condition : Node) (label : SymbolRef) : Lower Unit := do
  let value ← valueOf condition
  discard (emit ⟨value.ty.width, .jumpZero, some value, none, some (.symbol label)⟩)

def jumpUnless (condition : Node) (label : SymbolRef) : Lower Unit :=
  match condition with
  | .binary (.relational relation) _ left right => jumpUnlessRelated relation left right label
  | _ => jumpUnlessValue condition label

def conditional (condition : Node) (consequent : Lower Unit) (alternative : Option (Lower Unit)) :
    Lower Unit := do
  let otherwise ← freshLabel
  jumpUnless condition otherwise
  consequent
  match alternative with
  | none => emitLabel otherwise
  | some alternative =>
    let done ← freshLabel
    emitGoto done
    emitLabel otherwise
    alternative
    emitLabel done

def loop (condition : Node) (body : Lower Unit) : Lower Unit := do
  let head ← freshLabel
  let done ← freshLabel
  emitLabel head
  jumpUnless condition done
  body
  emitGoto head
  emitLabel done

def returned (node : Node) : Lower Operand := do
  let value ← valueOf node
  match ← returnType? with
  | some ty => widen value ty
  | none => return value

/-- A return. Nothing is returned for an empty node, or one left over from a source error. -/
def ret (node : Node) : Lower Unit := do
  let value ←
    match node.kind with
    | .empty | .error | .unknown => pure none
    | _ => some <$> returned node
  discard (emit ⟨.void, .ret, value, none, none⟩)

def statement : Node → Lower Unit
  | .binary .conditional _ condition (.binary .branches _ consequent alternative) =>
    conditional condition (statement consequent) (some (statement alternative))
  | .binary kind ty left right =>
    match kind with
    | .statementList => do
      statement left
      statement right
    | .assignment => assignment left right
    | .conditional => conditional left (statement right) none
    | .loop => loop left (statement right)
    | .ret => ret .empty
    | .call => discard (call (.binary kind ty left right))
    | _ => return ()
  | .unary kind _ child => if kind = .ret then ret child else return ()
  | node => if node.kind = .ret then ret .empty else return ()

def conditionalOf (condition consequent : Node) (alternative : Option Node) : Lower Unit :=
  conditional condition (statement consequent) (alternative.map statement)

def loopOf (condition body : Node) : Lower Unit := loop condition (statement body)

def functionSymbol (id : SymbolId) : Lower Symbol := fun state =>
  match state.table.get? id with
  | none => .error (.notAFunction id) state
  | some symbol => if symbol.kind = .function then .ok symbol state else .error (.notAFunction id) state

def function (id : SymbolId) (root : Node) : Lower Unit := do
  let symbol ← functionSymbol id
  discard (enterFunction id)
  discard (emit ⟨.void, .func, some (.symbol ⟨id, symbol.ty⟩), none, none⟩)
  statement root
  discard leaveFunction

def functions (body : SymbolId → Node) : List SymbolId → Lower Unit
  | [] => return ()
  | id :: rest => do
    function id (body id)
    functions body rest

end Lower

end ThreeAddress
