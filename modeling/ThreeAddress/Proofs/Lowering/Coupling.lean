import Mathlib.Data.List.Forall2
import ThreeAddress.Proofs.Lowering.Discards

set_option autoImplicit false

/-!
Two runs side by side. A link between ids and a relation between states are kept by the lowering of
every tree over linked symbols, as soon as they are kept where a statement is emitted, a symbol is
allocated or the table is asked for a type.
-/

namespace ThreeAddress

section Linked

variable (link : SymbolId → SymbolId → Prop)

def SymbolRef.Linked (ref other : SymbolRef) : Prop := link ref.id other.id ∧ ref.ty = other.ty

inductive Operand.Linked : Operand → Operand → Prop where
  | immediate (value : Immediate) : Linked (.immediate value) (.immediate value)
  | symbol (ref other : SymbolRef) (linked : ref.Linked link other) : Linked (.symbol ref) (.symbol other)

structure Statement.Linked (statement other : Statement) : Prop where
  width : statement.width = other.width
  opcode : statement.opcode = other.opcode
  first : Option.Rel (Operand.Linked link) statement.first other.first
  second : Option.Rel (Operand.Linked link) statement.second other.second
  result : Option.Rel (Operand.Linked link) statement.result other.result

inductive Operand.Paired : Operand × Operand × ValueType → Operand × Operand × ValueType → Prop where
  | both (left right first second : Operand) (ty : ValueType) (lefts : left.Linked link first)
      (rights : right.Linked link second) : Paired (left, right, ty) (first, second, ty)

inductive Destination.Linked : Destination → Destination → Prop where
  | named (target other : SymbolRef) (linked : target.Linked link other) :
      Linked (.variable target) (.variable other)
  | element (array other : SymbolRef) (index second : Operand) (linked : array.Linked link other)
      (indices : index.Linked link second) : Linked (.element array index) (.element other second)

end Linked

section Links

variable {link : SymbolId → SymbolId → Prop}

theorem Operand.linked_ty (operand other : Operand) (linked : operand.Linked link other) :
    operand.ty = other.ty := by
  cases linked with
  | immediate value => rfl
  | symbol ref other linked => exact linked.2

theorem rel_isSome {α β : Type} {relation : α → β → Prop} (a : Option α) (b : Option β)
    (related : Option.Rel relation a b) : a.isSome = b.isSome := by
  cases related <;> rfl

theorem Statement.linked_conforms (statement other : Statement) (linked : statement.Linked link other) :
    statement.conforms = other.conforms := by
  simp only [Statement.conforms, linked.opcode, rel_isSome _ _ linked.first,
    rel_isSome _ _ linked.second, rel_isSome _ _ linked.result]

theorem Node.reference_linked (node : Node) (ref : SymbolRef) (named : node.reference? = some ref)
    (linked : ∀ id ∈ node.symbols, link id id) : ref.Linked link ref := by
  cases node with
  | symbol kind ty id =>
      obtain rfl : SymbolRef.mk id ty = ref := Option.some.inj named
      exact ⟨linked id List.mem_cons_self, rfl⟩
  | _ => cases named

end Links

namespace Lower

variable {α β γ δ : Type}

inductive Alike (twin : Lowering → Lowering → Prop) (image : α → β → Prop) :
    EStateM.Result LoweringError Lowering α → EStateM.Result LoweringError Lowering β → Prop where
  | ok (a : α) (b : β) (after other : Lowering) (matched : image a b) (twins : twin after other) :
      Alike twin image (.ok a after) (.ok b other)
  | error (cause : LoweringError) (after other : Lowering) (twins : twin after other) :
      Alike twin image (.error cause after) (.error cause other)

def Couples (twin : Lowering → Lowering → Prop) (image : α → β → Prop) (action : Lower α) (second : Lower β) :
    Prop :=
  ∀ state other, twin state other → Alike twin image (action state) (second other)

/-- What the two runs must keep together. -/
structure Coupled (link : SymbolId → SymbolId → Prop) (twin : Lowering → Lowering → Prop) : Prop where
  emit : ∀ statement other, statement.conforms = true → Statement.Linked link statement other →
    Couples twin (fun _ _ => True) (discard (emit statement)) (discard (emit other))
  temporary : ∀ ty, Couples twin (SymbolRef.Linked link) (freshTemporary ty) (freshTemporary ty)
  label : Couples twin (SymbolRef.Linked link) freshLabel freshLabel
  parameters : ∀ id, Couples twin Eq (parameterTypes id) (parameterTypes id)
  returned : Couples twin Eq returnType? returnType?

section Walk

variable {link : SymbolId → SymbolId → Prop} {twin : Lowering → Lowering → Prop}

theorem couples_pure (image : α → β → Prop) (a : α) (b : β) (matched : image a b) :
    Couples twin image (pure a : Lower α) (pure b : Lower β) :=
  fun state other twins => .ok a b state other matched twins

theorem couples_throw (image : α → β → Prop) (cause : LoweringError) :
    Couples twin image (throw cause : Lower α) (throw cause : Lower β) :=
  fun state other twins => .error cause state other twins

theorem couples_bind (image : α → β → Prop) (last : γ → δ → Prop) (action : Lower α) (second : Lower β)
    (next : α → Lower γ) (following : β → Lower δ) (first : Couples twin image action second)
    (rest : ∀ a b, image a b → Couples twin last (next a) (following b)) :
    Couples twin last (action >>= next) (second >>= following) := by
  intro state other twins
  have outcome := first state other twins
  rw [bind_run, bind_run]
  revert outcome
  generalize action state = left
  generalize second other = right
  intro outcome
  cases outcome with
  | ok a b after later matched twins => exact rest a b matched after later twins
  | error cause after later twins => exact .error cause after later twins

theorem couples_map (image : α → β → Prop) (last : γ → δ → Prop) (action : Lower α) (second : Lower β)
    (change : α → γ) (convert : β → δ) (couples : Couples twin image action second)
    (matched : ∀ a b, image a b → last (change a) (convert b)) :
    Couples twin last (change <$> action) (convert <$> second) := by
  rw [map_eq_pure_bind, map_eq_pure_bind]
  exact couples_bind image last action second _ _ couples fun a b same => couples_pure last _ _ (matched a b same)

theorem couples_some (action second : Lower Operand) (couples : Couples twin (Operand.Linked link) action second) :
    Couples twin (Option.Rel (Operand.Linked link)) (some <$> action) (some <$> second) :=
  couples_map _ _ action second some some couples fun _ _ matched => .some matched

theorem couples_require (kind : NodeKind) (value second : Lower (Option Operand))
    (couples : Couples twin (Option.Rel (Operand.Linked link)) value second) :
    Couples twin (Operand.Linked link) (require kind value) (require kind second) := by
  apply couples_bind _ _ value second _ _ couples
  intro a b matched
  cases matched with
  | none => exact couples_throw _ _
  | some matched => exact couples_pure _ _ _ matched

variable (coupled : Coupled link twin)

include coupled

theorem couples_computed (ty : ValueType) (statement other : SymbolRef → Statement)
    (fits : ∀ result, (statement result).conforms = true)
    (linked : ∀ result second, result.Linked link second → (statement result).Linked link (other second)) :
    Couples twin (Operand.Linked link)
      (do
        let result ← freshTemporary ty
        discard (emit (statement result))
        return Operand.symbol result)
      (do
        let result ← freshTemporary ty
        discard (emit (other result))
        return Operand.symbol result) := by
  apply couples_bind _ _ _ _ _ _ (coupled.temporary ty)
  intro result second matched
  apply couples_bind _ _ _ _ _ _ (coupled.emit _ _ (fits result) (linked result second matched))
  intro _ _ _
  exact couples_pure _ _ _ (.symbol result second matched)

theorem couples_coerce (value other : Operand) (matched : value.Linked link other) (ty : ValueType) :
    Couples twin (Operand.Linked link) (coerce value ty) (coerce other ty) :=
  couples_computed coupled ty _ _ (fun _ => rfl) fun result second same =>
    ⟨rfl, rfl, .some matched, .none, .some (.symbol result second same)⟩

theorem couples_widen (value other : Operand) (matched : value.Linked link other) (ty : ValueType) :
    Couples twin (Operand.Linked link) (widen value ty) (widen other ty) := by
  rw [widen, widen, ← value.linked_ty other matched]
  by_cases wider : value.ty.widensTo ty = true
  · rw [if_pos wider, if_pos wider]
    exact couples_coerce coupled value other matched ty
  · rw [if_neg wider, if_neg wider]
    exact couples_pure _ _ _ matched

theorem couples_operands (wanted : Option ValueType) (left right : Lower Operand)
    (first : Couples twin (Operand.Linked link) left left)
    (second : Couples twin (Operand.Linked link) right right) :
    Couples twin (Operand.Paired link) (operands wanted left right) (operands wanted left right) := by
  apply couples_bind _ _ _ _ _ _ first
  intro a b matched
  apply couples_bind _ _ _ _ _ _ second
  intro c d following
  simp only [← a.linked_ty b matched, ← c.linked_ty d following]
  apply couples_bind _ _ _ _ _ _ (couples_widen coupled a b matched _)
  intro wide other widened
  exact couples_map _ _ _ _ _ _ (couples_widen coupled c d following _) fun last copy same =>
    .both wide last other copy _ widened same

theorem couples_combination (combination : Combination) (left right : Lower Operand)
    (first : Couples twin (Operand.Linked link) left left)
    (second : Couples twin (Operand.Linked link) right right) :
    Couples twin (Operand.Linked link) (combination.lower left right) (combination.lower left right) := by
  apply couples_bind _ _ _ _ _ _ (couples_operands coupled _ left right first second)
  intro pair other matched
  cases matched with
  | both wide following copy second ty lefts rights =>
      exact couples_computed coupled _ _ _ (combination.statement_conforms _ _ _) fun result other same =>
        ⟨rfl, rfl, .some lefts, .some rights, .some (.symbol result other same)⟩

theorem couples_apply_unary (operator : UnaryOp) (ty : ValueType) (value other : Operand)
    (matched : value.Linked link other) :
    Couples twin (Operand.Linked link) (applyUnary operator ty value) (applyUnary operator ty other) := by
  unfold applyUnary
  rw [← value.linked_ty other matched]
  apply couples_bind _ _ _ _ _ _ (couples_widen coupled value other matched _)
  intro wide second widened
  exact couples_computed coupled _ _ _ (fun _ => rfl) fun result second same =>
    ⟨rfl, rfl, .some widened, .none, .some (.symbol result second same)⟩

theorem couples_unary (operator : UnaryOperator) (ty : ValueType) (value : Lower Operand)
    (couples : Couples twin (Operand.Linked link) value value) :
    Couples twin (Operand.Linked link) (unary operator ty value) (unary operator ty value) := by
  apply couples_bind _ _ _ _ _ _ couples
  intro a b matched
  cases operator with
  | not => exact couples_apply_unary coupled .not ty a b matched
  | minus => exact couples_apply_unary coupled .neg ty a b matched
  | plus => exact couples_widen coupled a b matched ty
  | coercion =>
      simp only [← a.linked_ty b matched]
      split
      next => exact couples_coerce coupled a b matched ty
      next => exact couples_pure _ _ _ matched

theorem couples_read_element (ty : ValueType) (base : Node) (index : Lower Operand)
    (linked : ∀ id ∈ base.symbols, link id id) (couples : Couples twin (Operand.Linked link) index index) :
    Couples twin (Option.Rel (Operand.Linked link)) (readElement ty base index) (readElement ty base index) := by
  cases named : base.reference? with
  | none =>
      rw [read_element_unnamed ty base index named]
      exact couples_pure _ _ _ .none
  | some array =>
      rw [read_element_named ty base index array named]
      apply couples_some
      apply couples_bind _ _ _ _ _ _ couples
      intro a b matched
      exact couples_computed coupled _ _ _ (fun _ => rfl) fun result second same =>
        ⟨rfl, rfl, .some (.symbol array array (base.reference_linked array named linked)), .some matched,
          .some (.symbol result second same)⟩

theorem couples_argument (formal : Option ValueType) (value : Lower Operand)
    (couples : Couples twin (Operand.Linked link) value value) :
    Couples twin (Operand.Linked link) (argument formal value) (argument formal value) := by
  apply couples_bind _ _ _ _ _ _ couples
  intro a b matched
  cases formal with
  | none => exact couples_pure _ _ _ matched
  | some ty => exact couples_widen coupled a b matched ty

theorem couples_arguments_from (kind : NodeKind) (formals : List ValueType) (list : Lower (List Operand))
    (last : Lower Operand) (lists : Couples twin (List.Forall₂ (Operand.Linked link)) list list)
    (couples : Couples twin (Operand.Linked link) last last) :
    Couples twin (List.Forall₂ (Operand.Linked link)) (argumentsFrom kind formals list last)
      (argumentsFrom kind formals list last) := by
  unfold argumentsFrom
  split
  next => exact couples_pure _ _ _ .nil
  next => exact lists
  next =>
    exact couples_map _ _ _ _ _ _ (couples_argument coupled formals.head? last couples) fun _ _ matched =>
      .cons matched .nil

theorem couples_pass (values others : List Operand) (matched : List.Forall₂ (Operand.Linked link) values others) :
    Couples twin (fun _ _ => True) (pass values) (pass others) := by
  induction matched with
  | nil => exact couples_pure _ _ _ trivial
  | @cons value other rest following same _ ih =>
      have passed : Statement.Linked link ⟨value.ty.width, .param, some value, none, none⟩
          ⟨other.ty.width, .param, some other, none, none⟩ :=
        ⟨congrArg ValueType.width (value.linked_ty other same), rfl, .some same, .none, .none⟩
      exact couples_bind _ _ _ _ _ _ (coupled.emit _ _ rfl passed) fun _ _ _ => ih

theorem couples_finish (function : SymbolRef) (linked : function.Linked link function) :
    Couples twin (Option.Rel (Operand.Linked link)) (finishCall function) (finishCall function) := by
  have callee : Option.Rel (Operand.Linked link) (some (.symbol function)) (some (.symbol function)) :=
    .some (.symbol function function linked)
  rw [finishCall]
  by_cases scalar : function.ty.isScalar = true
  · rw [if_pos scalar]
    apply couples_some
    exact couples_computed coupled _ _ _ (fun _ => rfl) fun result second same =>
      ⟨rfl, rfl, callee, .none, .some (.symbol result second same)⟩
  · rw [if_neg scalar]
    apply couples_bind _ _ _ _ _ _ (coupled.emit _ _ rfl ⟨rfl, rfl, callee, .none, .none⟩)
    intro _ _ _
    exact couples_pure _ _ _ .none

theorem couples_call_with (callee : Node) (list : List ValueType → Lower (List Operand))
    (linked : ∀ id ∈ callee.symbols, link id id)
    (lists : ∀ formals, Couples twin (List.Forall₂ (Operand.Linked link)) (list formals) (list formals)) :
    Couples twin (Option.Rel (Operand.Linked link)) (callWith callee list) (callWith callee list) := by
  cases named : callee.reference? with
  | none =>
      rw [call_with_unnamed callee list named]
      exact couples_pure _ _ _ .none
  | some function =>
      rw [call_with_named callee list function named]
      apply couples_bind _ _ _ _ _ _ (coupled.parameters function.id)
      intro formals others same
      subst same
      apply couples_bind _ _ _ _ _ _ (lists formals)
      intro actuals passed matched
      exact couples_bind _ _ _ _ _ _ (couples_pass coupled actuals passed matched) fun _ _ _ =>
        couples_finish coupled function (callee.reference_linked function named linked)

theorem couples_value_arguments (node : Node) (linked : ∀ id ∈ node.symbols, link id id) :
    Couples twin (Option.Rel (Operand.Linked link)) (value node) (value node) ∧
      ∀ formals, Couples twin (List.Forall₂ (Operand.Linked link)) (arguments node formals)
        (arguments node formals) := by
  have missing : Couples twin (Option.Rel (Operand.Linked link)) (pure none : Lower (Option Operand))
      (pure none : Lower (Option Operand)) := couples_pure _ _ _ .none
  have nothing : ∀ _ : List ValueType, Couples twin (List.Forall₂ (Operand.Linked link))
      (pure [] : Lower (List Operand)) (pure [] : Lower (List Operand)) := fun _ => couples_pure _ _ _ .nil
  induction node with
  | leaf kind ty => exact ⟨missing, nothing⟩
  | constant kind ty literal =>
      refine ⟨?_, nothing⟩
      unfold value
      split
      next => exact couples_pure _ _ _ (.some (.immediate literal))
      next => exact missing
  | symbol kind ty id =>
      refine ⟨?_, nothing⟩
      unfold value
      split
      next => exact couples_pure _ _ _ (.some (.symbol ⟨id, ty⟩ ⟨id, ty⟩ ⟨linked id List.mem_cons_self, rfl⟩))
      next => exact missing
  | unary kind ty child ih =>
      refine ⟨?_, nothing⟩
      unfold value
      split
      next operator =>
        exact couples_some _ _ (couples_unary coupled operator ty _ (couples_require _ _ _ (ih linked).1))
      next => exact missing
  | binary kind ty left right ihLeft ihRight =>
      have linkedLeft : ∀ id ∈ left.symbols, link id id := fun id member =>
        linked id (List.mem_append_left _ member)
      have linkedRight : ∀ id ∈ right.symbols, link id id := fun id member =>
        linked id (List.mem_append_right _ member)
      have first := couples_require left.kind _ _ (ihLeft linkedLeft).1
      have second := couples_require right.kind _ _ (ihRight linkedRight).1
      refine ⟨?_, ?_⟩
      · unfold value
        split
        next =>
          rw [Combination.lower_compare]
          exact couples_some _ _ (couples_combination coupled _ _ _ first second)
        next =>
          rw [Combination.lower_compute]
          exact couples_some _ _ (couples_combination coupled _ _ _ first second)
        next => exact couples_read_element coupled ty left _ linkedLeft second
        next =>
          exact couples_call_with coupled left _ linkedLeft fun formals =>
            couples_arguments_from coupled _ formals _ _ ((ihRight linkedRight).2 formals) second
        next => exact missing
      · intro formals
        unfold arguments
        apply couples_bind _ _ _ _ _ _ (couples_argument coupled formals.head? _ first)
        intro a b matched
        exact couples_map _ _ _ _ _ _
          (couples_arguments_from coupled _ formals.tail _ _ ((ihRight linkedRight).2 formals.tail) second)
          fun _ _ others => .cons matched others

theorem couples_value_of (node : Node) (linked : ∀ id ∈ node.symbols, link id id) :
    Couples twin (Operand.Linked link) (valueOf node) (valueOf node) :=
  couples_require node.kind _ _ (couples_value_arguments coupled node linked).1

theorem couples_call (node : Node) (linked : ∀ id ∈ node.symbols, link id id) :
    Couples twin (Option.Rel (Operand.Linked link)) (call node) (call node) := by
  unfold call
  split
  next kind ty callee list =>
    have linkedList : ∀ id ∈ list.symbols, link id id := fun id member =>
      linked id (List.mem_append_right _ member)
    exact couples_call_with coupled callee _ (fun id member => linked id (List.mem_append_left _ member))
      fun formals => couples_arguments_from coupled _ formals _ _
        ((couples_value_arguments coupled list linkedList).2 formals) (couples_value_of coupled list linkedList)
  next => exact couples_pure _ _ _ .none

theorem couples_destination (node : Node) (linked : ∀ id ∈ node.symbols, link id id) :
    Couples twin (Destination.Linked link) (destination node) (destination node) := by
  by_cases named : ∃ ty id, node = .symbol .identifier ty id
  · obtain ⟨ty, id, rfl⟩ := named
    exact couples_pure _ _ _ (.named ⟨id, ty⟩ ⟨id, ty⟩ ⟨linked id List.mem_cons_self, rfl⟩)
  · by_cases written : ∃ ty base index, node = .binary .elementWrite ty base index
    · obtain ⟨ty, base, index, rfl⟩ := written
      rw [destination_element]
      cases reference : base.reference? with
      | none => exact couples_throw _ _
      | some array =>
          have array_linked := base.reference_linked array reference fun id member =>
            linked id (List.mem_append_left _ member)
          exact couples_map _ _ _ _ _ _
            (couples_value_of coupled index fun id member => linked id (List.mem_append_right _ member))
            fun a b matched => .element array array a b array_linked matched
    · rw [destination_missing node (fun ty id same => named ⟨ty, id, same⟩)
        (fun ty base index same => written ⟨ty, base, index, same⟩)]
      exact couples_throw _ _

theorem couples_store (value other : Operand) (matched : value.Linked link other) (place second : Destination)
    (same : place.Linked link second) : Couples twin (fun _ _ => True) (store value place) (store other second) := by
  cases same with
  | named target copy linked =>
      simp only [store, ← linked.2]
      apply couples_bind _ _ _ _ _ _ (couples_widen coupled value other matched _)
      intro wide widened into
      exact coupled.emit _ _ rfl ⟨rfl, rfl, .some into, .none, .some (.symbol target copy linked)⟩
  | element array copy index subscript linked indices =>
      simp only [store, ← linked.2, ← value.linked_ty other matched]
      apply couples_bind _ _ _ _ _ _ (couples_widen coupled value other matched _)
      intro wide widened into
      exact coupled.emit _ _ rfl ⟨rfl, rfl, .some into, .some indices, .some (.symbol array copy linked)⟩

theorem couples_assignment (target source : Node) (linkedTarget : ∀ id ∈ target.symbols, link id id)
    (linkedSource : ∀ id ∈ source.symbols, link id id) :
    Couples twin (fun _ _ => True) (assignment target source) (assignment target source) := by
  apply couples_bind _ _ _ _ _ _ (couples_value_of coupled source linkedSource)
  intro value other matched
  exact couples_bind _ _ _ _ _ _ (couples_destination coupled target linkedTarget) fun place second same =>
    couples_store coupled value other matched place second same

theorem couples_returned (node : Node) (linked : ∀ id ∈ node.symbols, link id id) :
    Couples twin (Operand.Linked link) (returned node) (returned node) := by
  apply couples_bind _ _ _ _ _ _ (couples_value_of coupled node linked)
  intro value other matched
  apply couples_bind _ _ _ _ _ _ coupled.returned
  intro ty second same
  subst same
  cases ty with
  | none => exact couples_pure _ _ _ matched
  | some ty => exact couples_widen coupled value other matched ty

theorem couples_ret (node : Node) (linked : ∀ id ∈ node.symbols, link id id) :
    Couples twin (fun _ _ => True) (ret node) (ret node) := by
  have computed : Couples twin (Option.Rel (Operand.Linked link))
      (if node.isBlank then pure none else some <$> returned node)
      (if node.isBlank then pure none else some <$> returned node) := by
    by_cases blank : node.isBlank = true
    · rw [if_pos blank]
      exact couples_pure _ _ _ .none
    · rw [if_neg blank]
      exact couples_some _ _ (couples_returned coupled node linked)
  rw [ret_eq]
  apply couples_bind _ _ _ _ _ _ computed
  intro value other matched
  exact coupled.emit _ _ (by cases value <;> rfl) ⟨rfl, rfl, matched, .none, .none⟩

theorem couples_jump_unless (condition : Node) (linked : ∀ id ∈ condition.symbols, link id id)
    (label other : SymbolRef) (target : label.Linked link other) :
    Couples twin (fun _ _ => True) (jumpUnless condition label) (jumpUnless condition other) := by
  have labels : Option.Rel (Operand.Linked link) (some (.symbol label)) (some (.symbol other)) :=
    .some (.symbol label other target)
  unfold jumpUnless
  split
  next relation ty left right =>
    have first := couples_value_of coupled left fun id member => linked id (List.mem_append_left _ member)
    have second := couples_value_of coupled right fun id member => linked id (List.mem_append_right _ member)
    apply couples_bind _ _ _ _ _ _ (couples_operands coupled none _ _ first second)
    intro pair copy matched
    cases matched with
    | both wide following one two ty lefts rights =>
        exact coupled.emit _ _ rfl ⟨rfl, rfl, .some lefts, .some rights, labels⟩
  next =>
    apply couples_bind _ _ _ _ _ _ (couples_value_of coupled condition linked)
    intro value copy matched
    rw [← value.linked_ty copy matched]
    exact coupled.emit _ _ rfl ⟨rfl, rfl, .some matched, .none, labels⟩

theorem couples_place (opcode : Opcode) (place : opcode = .label ∨ opcode = .goto) (label other : SymbolRef)
    (linked : label.Linked link other) :
    Couples twin (fun _ _ => True) (discard (emit ⟨.void, opcode, some (.symbol label), none, none⟩))
      (discard (emit ⟨.void, opcode, some (.symbol other), none, none⟩)) := by
  have fits : Statement.conforms ⟨.void, opcode, some (.symbol label), none, none⟩ = true := by
    rcases place with rfl | rfl <;> rfl
  exact coupled.emit _ _ fits ⟨rfl, rfl, .some (.symbol label other linked), .none, .none⟩

theorem couples_conditional (condition : Node) (linked : ∀ id ∈ condition.symbols, link id id)
    (consequent : Lower Unit) (alternative : Option (Lower Unit))
    (first : Couples twin (fun _ _ => True) consequent consequent)
    (second : ∀ action ∈ alternative, Couples twin (fun _ _ => True) action action) :
    Couples twin (fun _ _ => True) (conditional condition consequent alternative)
      (conditional condition consequent alternative) := by
  apply couples_bind _ _ _ _ _ _ coupled.label
  intro otherwise copy labels
  apply couples_bind _ _ _ _ _ _ (couples_jump_unless coupled condition linked otherwise copy labels)
  intro _ _ _
  apply couples_bind _ _ _ _ _ _ first
  intro _ _ _
  cases alternative with
  | none => exact couples_place coupled _ (Or.inl rfl) otherwise copy labels
  | some action =>
      apply couples_bind _ _ _ _ _ _ coupled.label
      intro done other ends
      apply couples_bind _ _ _ _ _ _ (couples_place coupled _ (Or.inr rfl) done other ends)
      intro _ _ _
      apply couples_bind _ _ _ _ _ _ (couples_place coupled _ (Or.inl rfl) otherwise copy labels)
      intro _ _ _
      exact couples_bind _ _ _ _ _ _ (second action rfl) fun _ _ _ =>
        couples_place coupled _ (Or.inl rfl) done other ends

theorem couples_loop (condition : Node) (linked : ∀ id ∈ condition.symbols, link id id) (body : Lower Unit)
    (inner : Couples twin (fun _ _ => True) body body) :
    Couples twin (fun _ _ => True) (loop condition body) (loop condition body) := by
  apply couples_bind _ _ _ _ _ _ coupled.label
  intro head copy heads
  apply couples_bind _ _ _ _ _ _ coupled.label
  intro done other ends
  apply couples_bind _ _ _ _ _ _ (couples_place coupled _ (Or.inl rfl) head copy heads)
  intro _ _ _
  apply couples_bind _ _ _ _ _ _ (couples_jump_unless coupled condition linked done other ends)
  intro _ _ _
  apply couples_bind _ _ _ _ _ _ inner
  intro _ _ _
  exact couples_bind _ _ _ _ _ _ (couples_place coupled _ (Or.inr rfl) head copy heads) fun _ _ _ =>
    couples_place coupled _ (Or.inl rfl) done other ends

theorem couples_simple (node : Node) (linked : ∀ id ∈ node.symbols, link id id) :
    Couples twin (fun _ _ => True) (simple node) (simple node) := by
  unfold simple
  split
  next ty target source =>
    exact couples_assignment coupled target source (fun id member => linked id (List.mem_append_left _ member))
      fun id member => linked id (List.mem_append_right _ member)
  next ty callee list =>
    exact couples_map _ _ _ _ _ _ (couples_call coupled (.binary .call ty callee list) linked) fun _ _ _ => trivial
  next => exact couples_pure _ _ _ trivial

theorem couples_statement (node : Node) (linked : ∀ id ∈ node.symbols, link id id) :
    Couples twin (fun _ _ => True) (statement node) (statement node) := by
  induction node using Node.construct_induction with
  | each node ih =>
      have inner : ∀ part ∈ node.construct.nodes, ∀ id ∈ part.symbols, link id id := by
        intro part inside id member
        rw [← part.references_symbols] at member
        obtain ⟨ref, referred, rfl⟩ := List.mem_map.mp member
        apply linked
        rw [← node.references_symbols]
        exact List.mem_map_of_mem (node.construct_references part inside referred)
      rw [statement_construct]
      cases shape : node.construct with
      | plain => exact couples_simple coupled node linked
      | ret value => exact couples_ret coupled value (inner value (by simp [shape, Construct.nodes]))
      | sequence first rest =>
          apply couples_bind _ _ _ _ _ _
            (ih first (by simp [shape, Construct.parts]) (inner first (by simp [shape, Construct.nodes])))
          intro _ _ _
          exact ih rest (by simp [shape, Construct.parts]) (inner rest (by simp [shape, Construct.nodes]))
      | conditional condition consequent alternative =>
          apply couples_conditional coupled condition (inner condition (by simp [shape, Construct.nodes]))
          · exact ih consequent (by simp [shape, Construct.parts])
              (inner consequent (by simp [shape, Construct.nodes]))
          · intro action member
            obtain ⟨other, present, rfl⟩ := Option.map_eq_some_iff.mp member
            exact ih other (by simp [shape, Construct.parts, present])
              (inner other (by simp [shape, Construct.nodes, present]))
      | loop condition body =>
          exact couples_loop coupled condition (inner condition (by simp [shape, Construct.nodes])) _
            (ih body (by simp [shape, Construct.parts]) (inner body (by simp [shape, Construct.nodes])))

end Walk

end Lower

end ThreeAddress
