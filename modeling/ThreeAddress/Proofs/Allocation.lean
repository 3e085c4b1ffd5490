import Mathlib.Data.List.Basic
import Mathlib.Logic.Relation
import ThreeAddress.Lowering.Basic
import ThreeAddress.Proofs.SymbolTable

set_option autoImplicit false

namespace ThreeAddress

def Allocation.kind : Allocation → SymbolKind
  | .temporary => .temporary
  | .label => .label

namespace SymbolTable

def temporariesFrom (table : SymbolTable) (known : Nat) (function : SymbolId) : List SymbolId :=
  ((table.listFrom known).filter fun entry =>
    entry.2.kind = .temporary ∧ entry.2.owner = some function).map Prod.fst

def namesFrom (table : SymbolTable) (known : Nat) (kind : SymbolKind) : List String :=
  ((table.listFrom known).filter fun entry => entry.2.kind = kind).map fun entry => entry.2.name

theorem list_from_size (table : SymbolTable) : table.listFrom table.size = [] := by
  simp [listFrom, size]

theorem list_from_push (table after : SymbolTable) (added : Symbol) (known : Nat)
    (symbols : after.symbols = table.symbols ++ [added]) (bound : known ≤ table.size) :
    after.listFrom known = table.listFrom known ++ [(table.size + 1, added)] := by
  unfold size at bound
  unfold listFrom
  rw [symbols, List.zipIdx_append, List.map_append, List.drop_append_of_le_length]
  · simp [size]
  · simpa using bound

theorem add_owned_scope (table after : SymbolTable) (function id : SymbolId) (kind : SymbolKind)
    (name : String) (ty : ValueType) (added : table.addOwned function kind name ty = some (id, after))
    (other : SymbolId) :
    after.scope? other =
      (table.scope? other).map fun scope =>
        if other = function then scope.enlist kind (table.size + 1) else scope := by
  unfold addOwned at added
  cases found : table.scope? function with
  | none => simp [found] at added
  | some scope =>
      simp only [found, Option.some.injEq, Prod.mk.injEq] at added
      obtain ⟨_, rfl⟩ := added
      have same : ∀ scope : Scope, (if scope.function = function then scope.enlist kind table.nextId
          else scope).function = scope.function := by
        intro scope
        split
        next => cases kind <;> rfl
        next => rfl
      simp only [scope?, List.find?_map, Function.comp_def, same]
      cases entry : table.scopes.find? fun scope => scope.function == other with
      | none => rfl
      | some scope =>
          have named : scope.function = other := by simpa using List.find?_some entry
          simp [named, nextId]

def Gain (before after : SymbolTable) : Prop :=
  ∃ (allocation : Allocation) (function id : SymbolId) (name : String) (ty : ValueType),
    before.addOwned function allocation.kind name ty = some (id, after)

def Gains : SymbolTable → SymbolTable → Prop := Relation.ReflTransGen Gain

/-- What gaining temporaries and labels leaves of a table: functions and parameters stay, and the
variables of a function are followed by the temporaries it has gained. -/
structure Grown (before after : SymbolTable) : Prop where
  symbols : before.symbols <+: after.symbols
  functions : after.functions = before.functions
  parameters : ∀ function, after.parameters? function = before.parameters? function
  locals : ∀ function, after.locals? function =
    (before.locals? function).map fun ids => ids ++ after.temporariesFrom before.size function

theorem parameters_gain (before after : SymbolTable) (gain : Gain before after) (function : SymbolId) :
    after.parameters? function = before.parameters? function := by
  obtain ⟨allocation, owner, id, name, ty, added⟩ := gain
  rw [parameters?, parameters?, before.add_owned_scope after owner id _ name ty added, Option.map_map]
  congr 1
  funext scope
  simp only [Function.comp_apply]
  split
  next => cases allocation <;> rfl
  next => rfl

theorem locals_gain (before after : SymbolTable) (gain : Gain before after) (known : Nat)
    (bound : known ≤ before.size) (function : SymbolId) :
    ∃ more, after.temporariesFrom known function = before.temporariesFrom known function ++ more ∧
      after.locals? function = (before.locals? function).map fun ids => ids ++ more := by
  obtain ⟨allocation, owner, id, name, ty, added⟩ := gain
  obtain ⟨_, symbols⟩ := before.add_owned_symbols after owner id _ name ty added
  have listed := before.list_from_push after _ known symbols bound
  have scope := before.add_owned_scope after owner id _ name ty added function
  simp only [temporariesFrom, listed, List.filter_append, List.map_append, locals?, scope, Option.map_map]
  refine ⟨_, rfl, ?_⟩
  congr 1
  funext scope
  by_cases same : function = owner
  · cases allocation <;> simp [same, Scope.enlist, Allocation.kind]
  · simp [same, Ne.symm same]

theorem gains_grown (before after : SymbolTable) (gains : Gains before after) : Grown before after := by
  induction gains with
  | refl =>
      refine ⟨List.prefix_refl _, rfl, fun _ => rfl, ?_⟩
      simp [temporariesFrom, list_from_size]
  | @tail middle after _ gain ih =>
      have ⟨_, owner, id, name, ty, added⟩ := gain
      obtain ⟨_, ⟨symbol, symbols⟩, functions⟩ := middle.add_owned_some after owner id _ name ty added
      refine ⟨ih.symbols.trans (symbols ▸ List.prefix_append _ _), functions.trans ih.functions, ?_, ?_⟩
      · intro function
        exact (parameters_gain middle after gain function).trans (ih.parameters function)
      · intro function
        obtain ⟨more, gained, locals⟩ :=
          locals_gain middle after gain before.size ih.symbols.length_le function
        rw [locals, ih.locals, gained, Option.map_map]
        simp [Function.comp_def]

def Listed (table : SymbolTable) : Prop :=
  ∀ function scope, table.scope? function = some scope → ∀ id ∈ scope.parameters, (table.get? id).isSome = true

theorem known_grows (table after : SymbolTable) (grown : table.symbols <+: after.symbols) (id : SymbolId)
    (known : (table.get? id).isSome = true) : (after.get? id).isSome = true := by
  obtain ⟨symbol, found⟩ := Option.isSome_iff_exists.mp known
  rw [get_of_grown table after grown id symbol found]
  rfl

theorem enlisted_parameters (scope : Scope) (kind : SymbolKind) (id : SymbolId) :
    (scope.enlist kind id).parameters =
      if kind = .parameter then scope.parameters ++ [id] else scope.parameters := by
  cases kind <;> rfl

theorem listed_owned (table after : SymbolTable) (function id : SymbolId) (kind : SymbolKind)
    (name : String) (ty : ValueType) (added : table.addOwned function kind name ty = some (id, after))
    (listed : table.Listed) : after.Listed := by
  obtain ⟨_, symbols⟩ := table.add_owned_symbols after function id kind name ty added
  have grown : table.symbols <+: after.symbols := symbols ▸ List.prefix_append _ _
  intro other scope found parameter member
  rw [table.add_owned_scope after function id kind name ty added] at found
  obtain ⟨old, earlier, rfl⟩ := Option.map_eq_some_iff.mp found
  have cases : parameter ∈ old.parameters ∨ parameter = table.size + 1 := by
    split at member
    next =>
      rw [enlisted_parameters] at member
      split at member
      next => simpa using member
      next => exact Or.inl member
    next => exact Or.inl member
  rcases cases with inside | rfl
  · exact known_grows table after grown parameter (listed other old earlier parameter inside)
  · rw [(table.get_push after _ symbols _ _).mpr (Or.inr ⟨rfl, rfl⟩)]
    rfl

theorem add_function_scope (table : SymbolTable) (name : String) (ty : ValueType) (function : SymbolId)
    (scope : Scope) (found : (table.addFunction name ty).2.scope? function = some scope) :
    table.scope? function = some scope ∨ function = table.size + 1 ∧ scope = ⟨function, [], []⟩ := by
  simp only [scope?, addFunction, List.find?_append, Option.or_eq_some_iff, List.find?_singleton] at found
  rcases found with old | ⟨_, new⟩
  · exact Or.inl old
  · split at new
    next same =>
      have named : table.nextId = function := by simpa using same
      exact Or.inr ⟨named.symm, named ▸ (Option.some.inj new).symm⟩
    next => cases new

theorem built_listed (table : SymbolTable) (built : table.Built) : table.Listed := by
  induction built with
  | empty => exact fun function scope found => by cases found
  | addGlobal table name ty _ ih =>
      intro function scope found id member
      exact known_grows table _ (List.prefix_append _ _) id (ih function scope found id member)
  | addFunction table name ty _ ih =>
      intro function scope found id member
      rcases table.add_function_scope name ty function scope found with old | ⟨_, rfl⟩
      · exact known_grows table _ (List.prefix_append _ _) id (ih function scope old id member)
      · cases member
  | addParameter table after function id name ty _ added ih =>
      exact listed_owned table after function id _ name ty added ih
  | addVariable table after function id name ty _ added ih =>
      exact listed_owned table after function id _ name ty added ih
  | addTemporary table after function id name ty _ added ih =>
      exact listed_owned table after function id _ name ty added ih
  | addLabel table after function id name _ added ih =>
      exact listed_owned table after function id _ name .void added ih

theorem grown_get (before after : SymbolTable) (grown : before.Grown after) (id : SymbolId)
    (known : (before.get? id).isSome = true) : after.get? id = before.get? id := by
  obtain ⟨symbol, found⟩ := Option.isSome_iff_exists.mp known
  rw [found, get_of_grown before after grown.symbols id symbol found]

theorem grown_parameter_types (before after : SymbolTable) (grown : before.Grown after) (listed : before.Listed)
    (function : SymbolId) : after.parameterTypes function = before.parameterTypes function := by
  unfold parameterTypes
  rw [grown.parameters]
  apply List.filterMap_congr
  intro id member
  cases found : before.scope? function with
  | none => simp [parameters?, found] at member
  | some scope =>
      have known := listed function scope found id (by simpa [parameters?, found] using member)
      rw [grown_get before after grown id known]

end SymbolTable

namespace Lowering

def allocated (state : Lowering) : Allocation → Nat
  | .temporary => state.temporaries
  | .label => state.labels

def withSymbol (state : Lowering) (table : SymbolTable) : Allocation → Lowering
  | .temporary => { state with table := table, temporaries := state.temporaries + 1 }
  | .label => { state with table := table, labels := state.labels + 1 }

@[simp] theorem with_symbol_table (state : Lowering) (table : SymbolTable) (allocation : Allocation) :
    (state.withSymbol table allocation).table = table := by
  cases allocation <;> rfl

@[simp] theorem with_symbol_program (state : Lowering) (table : SymbolTable) (allocation : Allocation) :
    (state.withSymbol table allocation).program = state.program := by
  cases allocation <;> rfl

@[simp] theorem with_symbol_function (state : Lowering) (table : SymbolTable) (allocation : Allocation) :
    (state.withSymbol table allocation).function = state.function := by
  cases allocation <;> rfl

end Lowering

namespace Lower

def allocate (allocation : Allocation) (ty : ValueType) : Lower SymbolRef := fun state =>
  match state.function with
  | none => .error (.noEnclosingFunction allocation) state
  | some function =>
    match state.table.addOwned function allocation.kind (allocation.name (state.allocated allocation)) ty with
    | none => .error (.notAFunction function) state
    | some (id, table) => .ok ⟨id, ty⟩ (state.withSymbol table allocation)

theorem fresh_temporary_allocates (ty : ValueType) : freshTemporary ty = allocate .temporary ty := rfl

theorem fresh_label_allocates : freshLabel = allocate .label .void := rfl

theorem allocate_error (allocation : Allocation) (ty : ValueType) (state after : Lowering) (cause : LoweringError)
    (ran : allocate allocation ty state = .error cause after) : after = state := by
  unfold allocate at ran
  grind

theorem allocate_ok (allocation : Allocation) (ty : ValueType) (state after : Lowering) (ref : SymbolRef)
    (ran : allocate allocation ty state = .ok ref after) :
    ∃ function table, state.function = some function ∧
      state.table.addOwned function allocation.kind (allocation.name (state.allocated allocation)) ty =
        some (state.table.size + 1, table) ∧
      ref = ⟨state.table.size + 1, ty⟩ ∧ after = state.withSymbol table allocation := by
  unfold allocate at ran
  cases inside : state.function with
  | none => simp [inside] at ran
  | some function =>
      cases added : state.table.addOwned function allocation.kind
          (allocation.name (state.allocated allocation)) ty with
      | none => simp [inside, added] at ran
      | some pair =>
          obtain ⟨id, _⟩ := state.table.add_owned_symbols pair.2 function pair.1 _ _ _ added
          simp only [inside, added, EStateM.Result.ok.injEq] at ran
          obtain ⟨rfl, rfl⟩ := ran
          exact ⟨function, pair.2, rfl, by rw [← id]; exact added, by rw [← id], rfl⟩

theorem allocate_pushes (allocation : Allocation) (ty : ValueType) (state after : Lowering) (ref : SymbolRef)
    (ran : allocate allocation ty state = .ok ref after) :
    ∃ function name, state.function = some function ∧ ref = ⟨state.table.size + 1, ty⟩ ∧
      after.table.symbols = state.table.symbols ++ [⟨name, ty, allocation.kind, some function⟩] ∧
      after.program = state.program := by
  obtain ⟨function, table, inside, added, rfl, rfl⟩ := allocate_ok allocation ty state after ref ran
  obtain ⟨_, symbols⟩ := state.table.add_owned_symbols table function _ _ _ _ added
  exact ⟨function, _, inside, rfl, by rw [Lowering.with_symbol_table, symbols], by simp⟩

end Lower

end ThreeAddress
