import Std.Data.ExtTreeMap
import ThreeAddress.Tree.Node

set_option autoImplicit false

namespace ThreeAddress

structure Bodies where
  roots : Std.ExtTreeMap SymbolId Node

namespace Bodies

def empty : Bodies := ⟨∅⟩

def root? (bodies : Bodies) (function : SymbolId) : Option Node := bodies.roots[function]?

def insert (bodies : Bodies) (function : SymbolId) (root : Node) : Option Node × Bodies :=
  (bodies.root? function, ⟨bodies.roots.insert function root⟩)

def body (bodies : Bodies) (function : SymbolId) : Node := (bodies.root? function).getD .empty

end Bodies

end ThreeAddress
