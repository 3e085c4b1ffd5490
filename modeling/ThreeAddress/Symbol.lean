import ThreeAddress.ValueType

set_option autoImplicit false

namespace ThreeAddress

/-- Identifier of a symbol, unique across a compilation unit; the first symbol has id 1. -/
abbrev SymbolId := Nat

namespace SymbolId

def bound : Nat := 0x10000000000000000

def text (id : SymbolId) : String := toString id

def ofDigits (digits : List Char) : Nat :=
  digits.foldl (fun number digit => 10 * number + (digit.toNat - '0'.toNat)) 0

def digits : List Char → List Char
  | '+' :: rest => rest
  | chars => chars

/-- Reads an id. It stands on a single line and is a decimal number below the bound; leading zeros
are fine. -/
def parse (text : String) : Except ParseError SymbolId :=
  let chars := text.toList
  if chars.contains '\n' then .error .form
  else if digits chars ≠ [] ∧ (digits chars).all Char.isDigit ∧ ofDigits (digits chars) < bound then
    .ok (ofDigits (digits chars))
  else .error (.field 0)

end SymbolId

inductive SymbolKind where
  | variable | parameter | function | temporary | label
deriving DecidableEq, Repr

namespace SymbolKind

def all : List SymbolKind := [.variable, .parameter, .function, .temporary, .label]

def text : SymbolKind → String
  | .variable => "variable"
  | .parameter => "parameter"
  | .function => "function"
  | .temporary => "temporary"
  | .label => "label"

instance : Vocabulary SymbolKind := ⟨all, text⟩

def isVariable : SymbolKind → Bool
  | .variable | .parameter | .temporary => true
  | .function | .label => false

end SymbolKind

/-- A symbol. The type of a function is its return type, that of a label is void; globals and
functions have no owner. -/
structure Symbol where
  name : String
  ty : ValueType
  kind : SymbolKind
  owner : Option SymbolId
deriving DecidableEq, Repr

def Symbol.isTracked (symbol : Symbol) : Bool := symbol.kind.isVariable && !symbol.ty.isArray

end ThreeAddress
