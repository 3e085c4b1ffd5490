import ThreeAddress.Statement

set_option autoImplicit false

namespace ThreeAddress

abbrev Line := Nat

structure Program where
  statements : List Statement
deriving DecidableEq, Repr

structure MalformedStatement where
  line : Line
  statement : Statement
deriving DecidableEq, Repr

def MalformedStatement.message (malformed : MalformedStatement) : String :=
  s!"malformed statement for line {malformed.line}: `{malformed.statement.text}` does not fit its operator"

namespace Program

def empty : Program := ⟨[]⟩

def size (program : Program) : Nat := program.statements.length

def isEmpty (program : Program) : Bool := program.statements.isEmpty

def get? (program : Program) (line : Line) : Option Statement := program.statements[line]?

def append (program : Program) (statement : Statement) :
    Except MalformedStatement (Line × Program) :=
  if statement.conforms then .ok (program.size, ⟨program.statements ++ [statement]⟩)
  else .error ⟨program.size, statement⟩

def appendAll (program : Program) (statements : List Statement) : Program :=
  statements.foldl
    (fun program statement =>
      match program.append statement with
      | .ok (_, longer) => longer
      | .error _ => program)
    program

def lines (program : Program) : List (Line × Statement) :=
  program.statements.zipIdx.map fun (statement, line) => (line, statement)

def listing (program : Program) : String :=
  String.join (program.lines.map fun (line, statement) => s!"{line}: {statement.text}\n")

end Program

end ThreeAddress
