import ThreeAddress.Lowering.Statement

set_option autoImplicit false

namespace ThreeAddress

namespace Node

/-- The statements of a tree in their order, with the lists opened. Damaged lists hold nothing. -/
def flattened : Node → List Node
  | .binary .statementList _ first rest => first.flattened ++ rest.flattened
  | node => if node.kind = .empty ∨ node.kind = .statementList then [] else [node]

theorem list_items (kind : NodeKind) (filled : kind ≠ .empty) (nodes : List Node) :
    (list kind nodes).items kind = nodes := by
  induction nodes with
  | nil => rfl
  | cons node rest ih => rw [list, items, if_neg filled, if_neg fun other => other rfl, ih]

end Node

namespace Lower

theorem statement_list (ty : ValueType) (first rest : Node) :
    statement (.binary .statementList ty first rest) = (do statement first; statement rest) := rfl

theorem statement_blank (node : Node) (unpaired : ∀ ty first rest, node ≠ .binary .statementList ty first rest)
    (blank : node.kind = .empty ∨ node.kind = .statementList) : statement node = pure () := by
  have unreturned : node.kind ≠ .ret := by
    rcases blank with empty | damaged
    · simp [empty]
    · simp [damaged]
  cases node with
  | binary kind ty left right =>
      rcases blank with empty | damaged
      · obtain rfl : kind = .empty := empty
        rfl
      · obtain rfl : kind = .statementList := damaged
        exact absurd rfl (unpaired ty left right)
  | unary kind ty child => exact if_neg unreturned
  | leaf kind ty => exact if_neg unreturned
  | constant kind ty value => exact if_neg unreturned
  | symbol kind ty id => exact if_neg unreturned

theorem statement_flattened (node : Node) : statement node = forM node.flattened statement := by
  fun_induction Node.flattened node with
  | case1 ty first rest ihFirst ihRest =>
      rw [statement_list, List.forM_append, ← ihFirst, ← ihRest]
  | case2 node unpaired blank =>
      rw [List.forM_nil]
      exact statement_blank node unpaired blank
  | case3 node unpaired filled => rw [List.forM_cons, List.forM_nil, bind_pure_unit]

theorem statement_items (node : Node) : statement node = forM (node.items .statementList) statement := by
  fun_induction Node.items .statementList node with
  | case1 ty left right => rfl
  | case2 kind ty left right filled other => rw [List.forM_cons, List.forM_nil, bind_pure_unit]
  | case3 kind ty left right filled listed ih =>
      obtain rfl : kind = .statementList := Decidable.not_not.mp listed
      rw [statement_list, List.forM_cons, ih]
  | case4 node unpaired blank =>
      rw [List.forM_nil]
      exact statement_blank node (fun ty first rest => unpaired .statementList ty first rest) blank
  | case5 node unpaired filled => rw [List.forM_cons, List.forM_nil, bind_pure_unit]

theorem flattening_decides_lowering :
    (∀ kind, kind ≠ .empty → ∀ nodes, (Node.list kind nodes).items kind = nodes) ∧
    (∀ node, statement node = forM (node.items .statementList) statement) ∧
    ∀ left right : Node, left.flattened = right.flattened →
      ∀ state, statement left state = statement right state := by
  refine ⟨Node.list_items, statement_items, ?_⟩
  intro left right same state
  calc
    statement left state = forM left.flattened statement state := by rw [← statement_flattened]
    _ = forM right.flattened statement state := by rw [same]
    _ = statement right state := by rw [← statement_flattened]

def increments : List Node :=
  let x : Node := .identifier 2 .int
  let increment : Node := .binary .assignment .void x (.binary (.arithmetic .add) .int x (.number (.int 1)))
  [increment, increment, .binary .assignment .void x .empty, increment]

/-- The same four statements in lists that are nested to the left, with blanks between them and a
damaged list in front. -/
def tangled : Node :=
  increments.foldl (fun before node => .list .statementList [before, .empty, node]) (.leaf .statementList .int)

def insideMain : Lowering :=
  ⟨⟨[⟨"main", .int, .function, none⟩, ⟨"x", .int, .variable, some 1⟩], [⟨1, [], [2]⟩]⟩, .empty, 0, 0, some 1⟩

theorem increments_lowered_alike :
    (Node.list .statementList (tangled :: increments)).items .statementList = tangled :: increments ∧
    tangled.flattened = (Node.list .statementList increments).flattened ∧
    tangled ≠ .list .statementList increments ∧
    ∃ after, statement (.list .statementList increments) insideMain = .error (.valueExpected .empty) after ∧
      statement tangled insideMain = .error (.valueExpected .empty) after ∧ after.program.size = 4 := by
  obtain ⟨listed, _, alike⟩ := flattening_decides_lowering
  have same : tangled.flattened = (Node.list .statementList increments).flattened := by decide
  refine ⟨listed .statementList (by decide) _, same, by decide, ?_⟩
  rw [alike tangled _ same]
  exact ⟨_, rfl, rfl, rfl⟩

end Lower

end ThreeAddress
