import Std.Data.ExtTreeSet
import ThreeAddress.Flow.ControlFlow

set_option autoImplicit false

/-!
Backward data flow over sets, line by line. Each line generates some facts and kills others; what
holds before a line is what holds after it, less what the line kills, and what it generates.
Blocks without successors end with the facts of the exit. Sweeps over all blocks are repeated
until one changes nothing.
-/

namespace ThreeAddress

abbrev FactSet (α : Type) [Ord α] := Std.ExtTreeSet α compare

namespace FactSet

variable {α : Type} [Ord α] [Std.TransOrd α] [Std.LawfulEqOrd α] [DecidableEq α]

def join (known more : FactSet α) : FactSet α × Bool :=
  let union := known ∪ more
  (union, union != known)

def joinAll (known : FactSet α) (more : List (FactSet α)) : FactSet α × Bool :=
  more.foldl
    (fun (joined, changed) set =>
      let (union, different) := join joined set
      (union, changed || different))
    (known, false)

end FactSet

structure LineFacts (α : Type) [Ord α] where
  before : List (Option (FactSet α))
  after : List (Option (FactSet α))

namespace LineFacts

variable {α : Type} [Ord α]

def before? (facts : LineFacts α) (line : Line) : Option (FactSet α) := (facts.before[line]?).join

def after? (facts : LineFacts α) (line : Line) : Option (FactSet α) := (facts.after[line]?).join

end LineFacts

structure GenKill (α : Type) [Ord α] where
  gen : List (FactSet α)
  kill : List (FactSet α)
  exit : FactSet α

namespace GenKill

variable {α : Type} [Ord α] [Std.TransOrd α] [Std.LawfulEqOrd α] [DecidableEq α]

def transfer (analysis : GenKill α) (line : Line) (after : FactSet α) : FactSet α :=
  (after \ analysis.kill.getD line ∅) ∪ analysis.gen.getD line ∅

def initial (flow : ControlFlow) (lineCount : Nat) : LineFacts α :=
  let slots := (List.range lineCount).map fun line =>
    if (List.range flow.blockCount).any fun block => (flow.lines block).contains line
    then some ∅ else none
  ⟨slots, slots⟩

def update (slots : List (Option (FactSet α))) (line : Line) (value : FactSet α) :
    List (Option (FactSet α)) × Bool :=
  if slots[line]? = some (some value) then (slots, false)
  else (slots.set line (some value), true)

structure Sweep (α : Type) [Ord α] where
  facts : LineFacts α
  changed : Bool

def sweepLine (analysis : GenKill α) : FactSet α × Sweep α → Line → FactSet α × Sweep α
  | (after, sweep), line =>
    let before := analysis.transfer line after
    let (afterSlots, afterChanged) := update sweep.facts.after line after
    let (beforeSlots, beforeChanged) := update sweep.facts.before line before
    (before, ⟨⟨beforeSlots, afterSlots⟩, sweep.changed || afterChanged || beforeChanged⟩)

def blockEnd (analysis : GenKill α) (flow : ControlFlow) (facts : LineFacts α) (block : BlockId) :
    FactSet α :=
  let next := flow.successors block
  if next.isTerminated then analysis.exit
  else (FactSet.joinAll ∅ (next.toList.filterMap fun successor =>
    facts.before? (flow.lines successor).first)).1

def sweepBlock (analysis : GenKill α) (flow : ControlFlow) (sweep : Sweep α) (block : BlockId) :
    Sweep α :=
  ((flow.lines block).toList.reverse.foldl analysis.sweepLine
    (analysis.blockEnd flow sweep.facts block, sweep)).2

def sweep (analysis : GenKill α) (flow : ControlFlow) (facts : LineFacts α) : Sweep α :=
  flow.reversePostOrder.reverse.foldl (analysis.sweepBlock flow) ⟨facts, false⟩

def support (analysis : GenKill α) : FactSet α := (FactSet.joinAll analysis.exit analysis.gen).1

def iterate (analysis : GenKill α) (flow : ControlFlow) : Nat → LineFacts α → LineFacts α
  | 0, facts => facts
  | sweeps + 1, facts =>
    let sweep := analysis.sweep flow facts
    if sweep.changed then analysis.iterate flow sweeps sweep.facts else sweep.facts

/-- The least solution. From the initial facts the sets around each line only grow, and no set
outgrows the support; that bounds the number of sweeps. -/
def solve (analysis : GenKill α) (flow : ControlFlow) (lineCount : Nat) : LineFacts α :=
  analysis.iterate flow (2 * lineCount * analysis.support.size + 1) (initial flow lineCount)

end GenKill

end ThreeAddress
