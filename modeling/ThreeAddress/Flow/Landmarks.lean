import Std.Data.ExtTreeMap
import Std.Data.ExtTreeSet
import ThreeAddress.Program

set_option autoImplicit false

namespace ThreeAddress

inductive FlowError where
  | noEntryPoint (name : String)
  | unresolvedLabel (line : Line) (label : SymbolId)
deriving DecidableEq, Repr

def FlowError.message : FlowError → String
  | .noEntryPoint name => s!"no entry point found: there is no function named `{name}`"
  | .unresolvedLabel line label =>
    s!"unresolved jump target:\n- the statement at line {line} jumps to label {label}\n"
      ++ "- but no `label` statement defines it"

structure Landmarks where
  leaders : Std.ExtTreeSet Line
  labels : Std.ExtTreeMap SymbolId Line
  calls : Std.ExtTreeMap SymbolId (List Line)
  entries : Std.ExtTreeMap SymbolId Line
  functions : List (Option SymbolId)

namespace Landmarks

def empty : Landmarks := ⟨∅, ∅, ∅, ∅, []⟩

def addLeader (marks : Landmarks) (line : Line) : Landmarks :=
  { marks with leaders := marks.leaders.insert line }

def addLabel (marks : Landmarks) (label : SymbolId) (line : Line) : Landmarks :=
  { marks with labels := marks.labels.insert label line }

def addEntry (marks : Landmarks) (function : SymbolId) (line : Line) : Landmarks :=
  { marks with entries := marks.entries.insert function line }

def addCall (marks : Landmarks) (function : SymbolId) (line : Line) : Landmarks :=
  { marks with calls := marks.calls.insert function (marks.calls.getD function [] ++ [line]) }

def resolve (marks : Landmarks) (line : Line) (label : SymbolId) : Except FlowError Line :=
  match marks.labels[label]? with
  | some target => .ok target
  | none => .error (.unresolvedLabel line label)

def functionOf (marks : Landmarks) (line : Line) : Option SymbolId := (marks.functions[line]?).join

def lastLine (marks : Landmarks) (lineCount : Nat) (start : Line) : Line :=
  match marks.leaders.toList.find? fun leader => start < leader with
  | some next => next - 1
  | none => lineCount - 1

structure Survey where
  marks : Landmarks
  function : Option SymbolId
  jumps : List (Line × SymbolId)

namespace Survey

def start (program : Program) : Survey :=
  ⟨if program.isEmpty then .empty else Landmarks.empty.addLeader 0, none, []⟩

def name (survey : Survey) (line : Line) (statement : Statement) : Survey :=
  match statement.opcode, statement.subject? with
  | .func, none => { survey with marks := survey.marks.addLeader line, function := none }
  | .func, some function =>
    { survey with
      marks := (survey.marks.addEntry function line).addLeader line
      function := some function }
  | .label, some label => { survey with marks := survey.marks.addLabel label line }
  | .call, some callee => { survey with marks := survey.marks.addCall callee line }
  | _, _ => survey

def enclose (survey : Survey) : Survey :=
  { survey with
    marks := { survey.marks with functions := survey.marks.functions ++ [survey.function] } }

def split (survey : Survey) (lineCount : Nat) (line : Line) (statement : Statement) : Survey :=
  if (statement.opcode.isJump ∨ statement.opcode = .ret) ∧ line + 1 < lineCount then
    { survey with marks := survey.marks.addLeader (line + 1) }
  else survey

def jump (survey : Survey) (line : Line) (statement : Statement) : Survey :=
  match statement.jumpTarget? with
  | some label => { survey with jumps := survey.jumps ++ [(line, label)] }
  | none => survey

def visit (lineCount : Nat) (survey : Survey) : Line × Statement → Survey
  | (line, statement) =>
    (((survey.name line statement).enclose).split lineCount line statement).jump line statement

end Survey

def resolveAll (marks : Landmarks) : List (Line × SymbolId) → Except FlowError Landmarks
  | [] => .ok marks
  | (line, label) :: rest =>
    match marks.resolve line label with
    | .ok target => (marks.addLeader target).resolveAll rest
    | .error reason => .error reason

/-- Landmarks of a program. Leaders are the first line, the functions' entries, the lines after a
jump, a call or a return, and the targets of jumps. -/
def collect (program : Program) : Except FlowError Landmarks :=
  let survey := program.lines.foldl (Survey.visit program.size) (Survey.start program)
  survey.marks.resolveAll survey.jumps

end Landmarks

end ThreeAddress
