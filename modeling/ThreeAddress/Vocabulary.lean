set_option autoImplicit false

namespace ThreeAddress

inductive ParseError where
  | form
  | field (index : Nat)
deriving DecidableEq, Repr

def ParseError.message : ParseError → String
  | .form => "parse failed."
  | .field index => s!"field `{index}` parse failed."

class Vocabulary (α : Type) where
  all : List α
  text : α → String

namespace Vocabulary

variable {α : Type} [Vocabulary α]

def ofText? (word : String) : Option α := all.find? fun a => text a == word

def parse (word : String) : Except ParseError α :=
  match ofText? word with
  | some a => .ok a
  | none => .error .form

def rank [BEq α] (a : α) : Nat := all.idxOf a

def order [BEq α] (a b : α) : Ordering := compare (rank a) (rank b)

end Vocabulary

end ThreeAddress
