import Mathlib.Data.List.Find
import ThreeAddress.SymbolTable

set_option autoImplicit false

namespace ThreeAddress

namespace SymbolTable

/-- Tables that result from the empty one. An addition that is refused changes nothing. -/
inductive Built : SymbolTable → Prop where
  | empty : Built .empty
  | addGlobal (table : SymbolTable) (name : String) (ty : ValueType) (built : Built table) :
      Built (table.addGlobal name ty).2
  | addFunction (table : SymbolTable) (name : String) (ty : ValueType) (built : Built table) :
      Built (table.addFunction name ty).2
  | addParameter (table after : SymbolTable) (function id : SymbolId) (name : String) (ty : ValueType)
      (built : Built table) (added : table.addParameter function name ty = some (id, after)) : Built after
  | addVariable (table after : SymbolTable) (function id : SymbolId) (name : String) (ty : ValueType)
      (built : Built table) (added : table.addVariable function name ty = some (id, after)) : Built after
  | addTemporary (table after : SymbolTable) (function id : SymbolId) (name : String) (ty : ValueType)
      (built : Built table) (added : table.addTemporary function name ty = some (id, after)) : Built after
  | addLabel (table after : SymbolTable) (function id : SymbolId) (name : String)
      (built : Built table) (added : table.addLabel function name = some (id, after)) : Built after

theorem get_of_grown (table after : SymbolTable) (grown : table.symbols <+: after.symbols) (id : SymbolId)
    (symbol : Symbol) (found : table.get? id = some symbol) : after.get? id = some symbol := by
  obtain ⟨more, whole⟩ := grown
  cases id with
  | zero => cases found
  | succ position =>
      have bound := (List.getElem?_eq_some_iff.mp found).1
      rw [get?, ← whole, List.getElem?_append_left bound]
      exact found

theorem add_owned_symbols (table after : SymbolTable) (function id : SymbolId) (kind : SymbolKind)
    (name : String) (ty : ValueType) (added : table.addOwned function kind name ty = some (id, after)) :
    id = table.size + 1 ∧ after.symbols = table.symbols ++ [⟨name, ty, kind, some function⟩] := by
  unfold addOwned at added
  cases scope : table.scope? function with
  | none => simp [scope] at added
  | some found =>
      simp only [scope, Option.some.injEq, Prod.mk.injEq] at added
      obtain ⟨rfl, rfl⟩ := added
      exact ⟨rfl, rfl⟩

theorem get_le_size (table : SymbolTable) (id : SymbolId) (symbol : Symbol)
    (found : table.get? id = some symbol) : id ≤ table.size := by
  cases id with
  | zero => exact Nat.zero_le _
  | succ position => exact (List.getElem?_eq_some_iff.mp found).1

theorem get_push (table after : SymbolTable) (added : Symbol) (symbols : after.symbols = table.symbols ++ [added])
    (id : SymbolId) (symbol : Symbol) :
    after.get? id = some symbol ↔ table.get? id = some symbol ∨ (id = table.size + 1 ∧ symbol = added) := by
  cases id with
  | zero => simp [get?]
  | succ position =>
      simp only [get?, symbols, List.getElem?_append, List.getElem?_singleton, size]
      grind

theorem add_owned_some (table after : SymbolTable) (function id : SymbolId) (kind : SymbolKind)
    (name : String) (ty : ValueType) (added : table.addOwned function kind name ty = some (id, after)) :
    id = table.size + 1 ∧ (∃ symbol, after.symbols = table.symbols ++ [symbol]) ∧
      after.functions = table.functions := by
  unfold addOwned at added
  cases scope : table.scope? function with
  | none => simp [scope] at added
  | some found =>
      simp only [scope, Option.some.injEq, Prod.mk.injEq] at added
      obtain ⟨rfl, rfl⟩ := added
      refine ⟨rfl, ⟨_, rfl⟩, ?_⟩
      simp only [functions, List.map_map]
      apply List.map_congr_left
      intro other _
      simp only [Function.comp_apply]
      split
      next => cases kind <;> rfl
      next => rfl

theorem scope_of_mem (table : SymbolTable) (id : SymbolId) (listed : id ∈ table.functions) :
    ∃ scope, table.scope? id = some scope := by
  obtain ⟨scope, member, same⟩ := List.mem_map.mp listed
  rw [scope?, ← Option.isSome_iff_exists, List.find?_isSome]
  exact ⟨scope, member, by simp [same]⟩

def Registered (table : SymbolTable) (id : SymbolId) : Prop :=
  id ∈ table.functions ∧ ∃ symbol, table.get? id = some symbol ∧ symbol.kind = .function

theorem registered_grows (table after : SymbolTable) (grown : table.symbols <+: after.symbols)
    (same : after.functions = table.functions) (id : SymbolId) (registered : table.Registered id) :
    after.Registered id := by
  obtain ⟨listed, symbol, found, kind⟩ := registered
  exact ⟨same ▸ listed, symbol, get_of_grown table after grown id symbol found, kind⟩

theorem registered_owned (table after : SymbolTable) (function id : SymbolId) (kind : SymbolKind)
    (name : String) (ty : ValueType) (added : table.addOwned function kind name ty = some (id, after))
    (registered : ∀ id ∈ table.functions, table.Registered id) :
    ∀ id ∈ after.functions, after.Registered id := by
  obtain ⟨_, ⟨symbol, symbols⟩, same⟩ := table.add_owned_some after function id kind name ty added
  intro other listed
  exact registered_grows table after (symbols ▸ List.prefix_append _ _) same other
    (registered other (same ▸ listed))

theorem built_registered (table : SymbolTable) (built : table.Built) :
    ∀ id ∈ table.functions, table.Registered id := by
  induction built with
  | empty => exact fun _ listed => by cases listed
  | addGlobal table name ty _ ih =>
      intro id listed
      exact registered_grows table (table.addGlobal name ty).2 (List.prefix_append _ _) rfl id (ih id listed)
  | addFunction table name ty _ ih =>
      intro id listed
      have symbols : table.symbols <+: (table.addFunction name ty).2.symbols := List.prefix_append _ _
      have functions : (table.addFunction name ty).2.functions = table.functions ++ [table.nextId] := by
        simp [addFunction, SymbolTable.functions]
      rw [functions] at listed
      rcases List.mem_append.mp listed with old | new
      · obtain ⟨_, symbol, found, kind⟩ := ih id old
        exact ⟨functions ▸ listed, symbol, get_of_grown table _ symbols id symbol found, kind⟩
      · obtain rfl := List.mem_singleton.mp new
        exact ⟨functions ▸ listed, ⟨name, ty, .function, none⟩, by simp [get?, nextId, size, addFunction, push], rfl⟩
  | addParameter table after function id name ty _ added ih =>
      exact registered_owned table after function id _ name ty added ih
  | addVariable table after function id name ty _ added ih =>
      exact registered_owned table after function id _ name ty added ih
  | addTemporary table after function id name ty _ added ih =>
      exact registered_owned table after function id _ name ty added ih
  | addLabel table after function id name _ added ih =>
      exact registered_owned table after function id _ name .void added ih

theorem unowned_push (table after : SymbolTable) (added : Symbol) (symbols : after.symbols = table.symbols ++ [added])
    (free : added.kind = .function → added.owner = none)
    (unowned : ∀ id symbol, table.get? id = some symbol → symbol.kind = .function → symbol.owner = none) :
    ∀ id symbol, after.get? id = some symbol → symbol.kind = .function → symbol.owner = none := by
  intro id symbol found kind
  rcases (table.get_push after added symbols id symbol).mp found with old | ⟨_, rfl⟩
  · exact unowned id symbol old kind
  · exact free kind

theorem built_unowned (table : SymbolTable) (built : table.Built) :
    ∀ id symbol, table.get? id = some symbol → symbol.kind = .function → symbol.owner = none := by
  induction built with
  | empty =>
      intro id symbol found
      cases id <;> cases found
  | addGlobal table name ty _ ih => exact unowned_push table _ _ rfl (by simp) ih
  | addFunction table name ty _ ih => exact unowned_push table _ _ rfl (by simp) ih
  | addParameter table after function id name ty _ added ih =>
      exact unowned_push table after _ (table.add_owned_symbols after function id _ name ty added).2 (by simp) ih
  | addVariable table after function id name ty _ added ih =>
      exact unowned_push table after _ (table.add_owned_symbols after function id _ name ty added).2 (by simp) ih
  | addTemporary table after function id name ty _ added ih =>
      exact unowned_push table after _ (table.add_owned_symbols after function id _ name ty added).2 (by simp) ih
  | addLabel table after function id name _ added ih =>
      exact unowned_push table after _ (table.add_owned_symbols after function id _ name .void added).2 (by simp) ih

theorem find_function_none (table : SymbolTable) (name : String) :
    table.findFunction? name = none ↔
      ∀ id ∈ table.functions, ∀ symbol, table.get? id = some symbol → symbol.name ≠ name := by
  rw [findFunction?, List.find?_eq_none]
  apply forall₂_congr
  intro id _
  cases table.get? id with
  | none => simp
  | some symbol => simp

theorem find_function_grows (table after : SymbolTable) (grown : table.symbols <+: after.symbols)
    (same : after.functions = table.functions) (registered : ∀ id ∈ table.functions, table.Registered id)
    (name : String) : after.findFunction? name = table.findFunction? name := by
  rw [findFunction?, findFunction?, same]
  apply List.find?_congr
  intro id listed
  obtain ⟨_, symbol, found, _⟩ := registered id listed
  rw [found, get_of_grown table after grown id symbol found]

end SymbolTable

end ThreeAddress
