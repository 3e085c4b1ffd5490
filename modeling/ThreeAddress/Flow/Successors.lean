import ThreeAddress.Program

set_option autoImplicit false

namespace ThreeAddress

inductive Successors (α : Type) where
  | terminated
  | continuous (next : α)
  | branching (fallthrough target : α)
deriving DecidableEq, Repr

namespace Successors

variable {α β : Type}

def isTerminated : Successors α → Bool
  | .terminated => true
  | _ => false

def toList : Successors α → List α
  | .terminated => []
  | .continuous next => [next]
  | .branching fallthrough target => [fallthrough, target]

def mapM {m : Type → Type} [Monad m] (f : α → m β) : Successors α → m (Successors β)
  | .terminated => pure .terminated
  | .continuous next => do return .continuous (← f next)
  | .branching fallthrough target => do
    let first ← f fallthrough
    let second ← f target
    return .branching first second

end Successors

structure Branching (α : Type) where
  fallsThrough : Bool
  target : Option α
deriving DecidableEq, Repr

namespace Branching

def resolve {α β ε : Type} (f : α → Except ε β) (branching : Branching α) :
    Except ε (Branching β) :=
  match branching.target with
  | none => .ok ⟨branching.fallsThrough, none⟩
  | some target =>
    match f target with
    | .ok place => .ok ⟨branching.fallsThrough, some place⟩
    | .error reason => .error reason

/-- Successors when `next` is the place to fall through to. A jump to that place is no branch. -/
def successors (branching : Branching Nat) (next : Nat) : Successors Nat :=
  match branching.target with
  | some target =>
    if branching.fallsThrough ∧ target ≠ next then .branching next target else .continuous target
  | none => if branching.fallsThrough then .continuous next else .terminated

end Branching

/-- A statement falls through unless it returns or jumps in any case. Calls come back, so they fall
through as far as a single function is concerned. -/
def Statement.branching (statement : Statement) : Branching SymbolId :=
  ⟨statement.opcode != .ret && statement.opcode != .goto, statement.jumpTarget?⟩

end ThreeAddress
