import ThreeAddress.Flow.Successors

set_option autoImplicit false

namespace ThreeAddress

abbrev BlockId := Nat

structure LineRange where
  first : Line
  last : Line
deriving DecidableEq, Repr

namespace LineRange

def toList (range : LineRange) : List Line :=
  List.range' range.first (range.last + 1 - range.first)

def contains (range : LineRange) (line : Line) : Bool := range.first ≤ line && line ≤ range.last

end LineRange

structure ControlFlow where
  blockCount : Nat
  roots : List BlockId
  successors : BlockId → Successors BlockId
  lines : BlockId → LineRange

namespace ControlFlow

structure Search where
  entered : List BlockId
  finished : List BlockId

/-- Enters a block unless it was entered before, follows its successors in order, and leaves it.
Numbers that are no block are skipped. Each level of the search enters a block, so the number of
blocks bounds the depth. -/
def explore (flow : ControlFlow) : Nat → Search → BlockId → Search
  | 0, search, _ => search
  | depth + 1, search, block =>
    if block < flow.blockCount ∧ block ∉ search.entered then
      let inner := (flow.successors block).toList.foldl (flow.explore depth)
        { search with entered := block :: search.entered }
      { inner with finished := block :: inner.finished }
    else search

def reversePostOrder (flow : ControlFlow) : List BlockId :=
  (flow.roots.foldl (flow.explore flow.blockCount) ⟨[], []⟩).finished

end ControlFlow

end ThreeAddress
