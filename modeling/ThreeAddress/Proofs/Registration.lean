import Mathlib.Data.List.Find
import ThreeAddress.Proofs.Allocation

set_option autoImplicit false

namespace ThreeAddress

inductive Addition where
  | addGlobal (name : String) (ty : ValueType)
  | addFunction (name : String) (ty : ValueType)
  | addParameter (owner : SymbolId) (name : String) (ty : ValueType)
  | addVariable (owner : SymbolId) (name : String) (ty : ValueType)
  | addTemporary (owner : SymbolId) (name : String) (ty : ValueType)
  | addLabel (owner : SymbolId) (name : String)
deriving DecidableEq, Repr

namespace SymbolTable

def IsFunction (table : SymbolTable) (id : SymbolId) : Prop :=
  ∃ symbol, table.get? id = some symbol ∧ symbol.kind = .function

structure Lists (table : SymbolTable) (ids : List SymbolId) (sort : Symbol → Prop) : Prop where
  ascending : ids.Pairwise (· < ·)
  complete : ∀ id, id ∈ ids ↔ ∃ symbol, table.get? id = some symbol ∧ sort symbol

def IsParameter (function : SymbolId) (symbol : Symbol) : Prop :=
  symbol.kind = .parameter ∧ symbol.owner = some function

def IsLocal (function : SymbolId) (symbol : Symbol) : Prop :=
  (symbol.kind = .variable ∨ symbol.kind = .temporary) ∧ symbol.owner = some function

structure Consistent (table : SymbolTable) : Prop where
  functions : table.Lists table.functions fun symbol => symbol.kind = .function
  parameters : ∀ function ids, table.parameters? function = some ids → table.Lists ids (IsParameter function)
  locals : ∀ function ids, table.locals? function = some ids → table.Lists ids (IsLocal function)
  owners : ∀ id symbol function, table.get? id = some symbol → symbol.owner = some function →
    function < id ∧ table.IsFunction function

theorem mem_functions_iff (table : SymbolTable) (id : SymbolId) :
    id ∈ table.functions ↔ (table.scope? id).isSome = true := by
  constructor
  · intro listed
    exact Option.isSome_iff_exists.mpr (table.scope_of_mem id listed)
  · intro present
    obtain ⟨scope, found⟩ := Option.isSome_iff_exists.mp present
    have named : scope.function = id := by simpa using List.find?_some found
    exact named ▸ List.mem_map_of_mem (List.mem_of_find?_eq_some found)

section Push

variable (table after : SymbolTable) (added : Symbol) (symbols : after.symbols = table.symbols ++ [added])
  (ids : List SymbolId) (sort : Symbol → Prop) (lists : table.Lists ids sort)

include symbols lists

theorem lists_more (fits : sort added) : after.Lists (ids ++ [table.size + 1]) sort where
  ascending := by
    rw [List.pairwise_append]
    refine ⟨lists.ascending, List.pairwise_singleton _ _, ?_⟩
    intro id member last same
    obtain ⟨symbol, found, _⟩ := (lists.complete id).mp member
    have bound := table.get_le_size id symbol found
    rw [List.mem_singleton.mp same]
    lia
  complete id := by
    simp only [List.mem_append, List.mem_singleton, lists.complete, table.get_push after added symbols]
    grind

theorem lists_same (other : ¬ sort added) : after.Lists ids sort where
  ascending := lists.ascending
  complete id := by
    simp only [lists.complete, table.get_push after added symbols]
    grind

end Push

theorem lists_nothing (table : SymbolTable) (sort : Symbol → Prop)
    (absent : ∀ id symbol, table.get? id = some symbol → ¬ sort symbol) : table.Lists [] sort where
  ascending := .nil
  complete id := by
    constructor
    · intro member
      cases member
    · rintro ⟨symbol, found, fits⟩
      exact absurd fits (absent id symbol found)

theorem empty_consistent : Consistent .empty where
  functions := lists_nothing _ _ fun id symbol found => by cases id <;> cases found
  parameters function ids found := by cases found
  locals function ids found := by cases found
  owners id symbol function found := by cases id <;> cases found

theorem owners_push (table after : SymbolTable) (added : Symbol) (symbols : after.symbols = table.symbols ++ [added])
    (consistent : table.Consistent)
    (known : ∀ function, added.owner = some function → table.IsFunction function) (id : SymbolId)
    (symbol : Symbol) (function : SymbolId) (found : after.get? id = some symbol)
    (owned : symbol.owner = some function) : function < id ∧ after.IsFunction function := by
  have grown : table.symbols <+: after.symbols := symbols ▸ List.prefix_append _ _
  have cases : function < id ∧ table.IsFunction function := by
    rcases (table.get_push after added symbols id symbol).mp found with old | ⟨rfl, rfl⟩
    · exact consistent.owners id symbol function old owned
    · obtain ⟨owner, present, kind⟩ := known function owned
      have bound := table.get_le_size function owner present
      exact ⟨by lia, owner, present, kind⟩
  obtain ⟨smaller, owner, present, kind⟩ := cases
  exact ⟨smaller, owner, table.get_of_grown after grown function owner present, kind⟩

theorem global_consistent (table : SymbolTable) (name : String) (ty : ValueType) (consistent : table.Consistent) :
    (table.addGlobal name ty).2.Consistent where
  functions := lists_same table _ ⟨name, ty, .variable, none⟩ rfl _ _ consistent.functions (by simp)
  parameters function ids found := lists_same table _ ⟨name, ty, .variable, none⟩ rfl _ _
    (consistent.parameters function ids found) (by simp [IsParameter])
  locals function ids found := lists_same table _ ⟨name, ty, .variable, none⟩ rfl _ _
    (consistent.locals function ids found) (by simp [IsLocal])
  owners := owners_push table _ ⟨name, ty, .variable, none⟩ rfl consistent (by simp)

theorem add_function_functions (table : SymbolTable) (name : String) (ty : ValueType) :
    (table.addFunction name ty).2.functions = table.functions ++ [table.size + 1] := by
  simp [addFunction, functions, nextId]

theorem function_consistent (table : SymbolTable) (name : String) (ty : ValueType)
    (consistent : table.Consistent) : (table.addFunction name ty).2.Consistent := by
  have symbols : (table.addFunction name ty).2.symbols = table.symbols ++ [⟨name, ty, .function, none⟩] := rfl
  have owners := owners_push table _ _ symbols consistent (by simp)
  -- A function that is new owns nothing: an owner is smaller than what it owns.
  have unowned : ∀ id symbol, (table.addFunction name ty).2.get? id = some symbol →
      symbol.owner ≠ some (table.size + 1) := by
    intro id symbol found owned
    have smaller := (owners id symbol _ found owned).1
    rcases (table.get_push _ _ symbols id symbol).mp found with old | ⟨rfl, rfl⟩
    · have bound := table.get_le_size id symbol old
      lia
    · cases owned
  refine ⟨?_, ?_, ?_, owners⟩
  · rw [add_function_functions]
    exact lists_more table _ _ symbols _ _ consistent.functions rfl
  · intro function ids found
    obtain ⟨scope, entry, rfl⟩ := Option.map_eq_some_iff.mp found
    rcases table.add_function_scope name ty function scope entry with old | ⟨rfl, rfl⟩
    · exact lists_same table _ _ symbols _ _
        (consistent.parameters function _ (Option.map_eq_some_iff.mpr ⟨scope, old, rfl⟩)) (by simp [IsParameter])
    · exact lists_nothing _ _ fun id symbol present fits => unowned id symbol present fits.2
  · intro function ids found
    obtain ⟨scope, entry, rfl⟩ := Option.map_eq_some_iff.mp found
    rcases table.add_function_scope name ty function scope entry with old | ⟨rfl, rfl⟩
    · exact lists_same table _ _ symbols _ _
        (consistent.locals function _ (Option.map_eq_some_iff.mpr ⟨scope, old, rfl⟩)) (by simp [IsLocal])
    · exact lists_nothing _ _ fun id symbol present fits => unowned id symbol present fits.2

theorem enlisted_locals (scope : Scope) (kind : SymbolKind) (id : SymbolId) :
    (scope.enlist kind id).locals =
      if kind = .variable ∨ kind = .temporary then scope.locals ++ [id] else scope.locals := by
  cases kind <;> rfl

theorem owned_consistent (table after : SymbolTable) (owner id : SymbolId) (kind : SymbolKind) (name : String)
    (ty : ValueType) (added : table.addOwned owner kind name ty = some (id, after)) (other : kind ≠ .function)
    (consistent : table.Consistent) : after.Consistent := by
  obtain ⟨_, symbols⟩ := table.add_owned_symbols after owner id kind name ty added
  obtain ⟨_, _, functions⟩ := table.add_owned_some after owner id kind name ty added
  have scopes := table.add_owned_scope after owner id kind name ty added
  have listed : owner ∈ table.functions := by
    rw [mem_functions_iff]
    cases scope : table.scope? owner with
    | none => simp [addOwned, scope] at added
    | some scope => rfl
  refine ⟨?_, ?_, ?_, ?_⟩
  · rw [functions]
    exact lists_same table after _ symbols _ _ consistent.functions other
  · intro function ids found
    rw [parameters?, scopes, Option.map_map] at found
    obtain ⟨scope, entry, rfl⟩ := Option.map_eq_some_iff.mp found
    have lists := consistent.parameters function _ (Option.map_eq_some_iff.mpr ⟨scope, entry, rfl⟩)
    simp only [Function.comp_apply]
    by_cases same : function = owner
    · rw [if_pos same, enlisted_parameters]
      by_cases fits : kind = .parameter
      · rw [if_pos fits]
        exact lists_more table after _ symbols _ _ lists ⟨fits, by rw [same]⟩
      · rw [if_neg fits]
        exact lists_same table after _ symbols _ _ lists fun sort => fits sort.1
    · rw [if_neg same]
      exact lists_same table after _ symbols _ _ lists fun sort => same (Option.some.inj sort.2).symm
  · intro function ids found
    rw [locals?, scopes, Option.map_map] at found
    obtain ⟨scope, entry, rfl⟩ := Option.map_eq_some_iff.mp found
    have lists := consistent.locals function _ (Option.map_eq_some_iff.mpr ⟨scope, entry, rfl⟩)
    simp only [Function.comp_apply]
    by_cases same : function = owner
    · rw [if_pos same, enlisted_locals]
      by_cases fits : kind = .variable ∨ kind = .temporary
      · rw [if_pos fits]
        exact lists_more table after _ symbols _ _ lists ⟨fits, by rw [same]⟩
      · rw [if_neg fits]
        exact lists_same table after _ symbols _ _ lists fun sort => fits sort.1
    · rw [if_neg same]
      exact lists_same table after _ symbols _ _ lists fun sort => same (Option.some.inj sort.2).symm
  · apply owners_push table after _ symbols consistent
    intro function same
    exact (consistent.functions.complete function).mp (Option.some.inj same ▸ listed)

theorem get_none_iff (table : SymbolTable) (id : SymbolId) :
    table.get? id = none ↔ id = 0 ∨ table.size < id := by
  cases id with
  | zero => simp [get?]
  | succ position =>
      rw [get?, List.getElem?_eq_none_iff, size]
      lia

def IsNamed (table : SymbolTable) (name : String) (id : SymbolId) : Prop :=
  ∃ symbol, table.get? id = some symbol ∧ symbol.kind = .function ∧ symbol.name = name

section Search

variable (table : SymbolTable) (consistent : table.Consistent) (name : String)

include consistent

theorem named_listed (id : SymbolId) :
    table.IsNamed name id ↔
      id ∈ table.functions ∧ (table.get? id).any (fun symbol => symbol.name == name) = true := by
  rw [consistent.functions.complete]
  constructor
  · rintro ⟨symbol, found, kind, same⟩
    exact ⟨⟨symbol, found, kind⟩, by simp [found, same]⟩
  · rintro ⟨⟨symbol, found, kind⟩, same⟩
    exact ⟨symbol, found, kind, by simpa [found] using same⟩

theorem find_function_least (function : SymbolId) (found : table.findFunction? name = some function) :
    table.IsNamed name function ∧ ∀ other, table.IsNamed name other → function ≤ other := by
  -- The functions are searched in ascending order.
  obtain ⟨fits, early, late, whole, before⟩ := List.find?_eq_some_iff_append.mp found
  refine ⟨(named_listed table consistent name function).mpr ⟨List.mem_of_find?_eq_some found, fits⟩, ?_⟩
  intro other same
  obtain ⟨place, fitsOther⟩ := (named_listed table consistent name other).mp same
  have ascending := consistent.functions.ascending
  rw [whole] at place ascending
  rcases List.mem_append.mp place with first | rest
  · have skipped := before other first
    simp [fitsOther] at skipped
  · rcases List.mem_cons.mp rest with rfl | behind
    · exact Nat.le_refl _
    · have later := (List.pairwise_cons.mp (List.pairwise_append.mp ascending).2.1).1 other behind
      exact Nat.le_of_lt later

theorem find_function_iff (function : SymbolId) :
    table.findFunction? name = some function ↔
      table.IsNamed name function ∧ ∀ other, table.IsNamed name other → function ≤ other := by
  refine ⟨find_function_least table consistent name function, ?_⟩
  rintro ⟨same, least⟩
  obtain ⟨listed, fits⟩ := (named_listed table consistent name function).mp same
  cases found : table.findFunction? name with
  | none => exact absurd fits (List.find?_eq_none.mp found function listed)
  | some first =>
      obtain ⟨sameFirst, leastFirst⟩ := find_function_least table consistent name first found
      rw [Nat.le_antisymm (leastFirst function same) (least first sameFirst)]

end Search

end SymbolTable

namespace Addition

def symbol : Addition → Symbol
  | .addGlobal name ty => ⟨name, ty, .variable, none⟩
  | .addFunction name ty => ⟨name, ty, .function, none⟩
  | .addParameter owner name ty => ⟨name, ty, .parameter, some owner⟩
  | .addVariable owner name ty => ⟨name, ty, .variable, some owner⟩
  | .addTemporary owner name ty => ⟨name, ty, .temporary, some owner⟩
  | .addLabel owner name => ⟨name, .void, .label, some owner⟩

def attempt : Addition → SymbolTable → Option (SymbolId × SymbolTable)
  | .addGlobal name ty, table => some (table.addGlobal name ty)
  | .addFunction name ty, table => some (table.addFunction name ty)
  | .addParameter owner name ty, table => table.addParameter owner name ty
  | .addVariable owner name ty, table => table.addVariable owner name ty
  | .addTemporary owner name ty, table => table.addTemporary owner name ty
  | .addLabel owner name, table => table.addLabel owner name

def perform (addition : Addition) (table : SymbolTable) : SymbolTable :=
  ((addition.attempt table).map Prod.snd).getD table

def performAll (additions : List Addition) (table : SymbolTable) : SymbolTable :=
  additions.foldl (fun table addition => addition.perform table) table

def given : List Addition → SymbolTable → List SymbolId
  | [], _ => []
  | addition :: rest, table =>
    ((addition.attempt table).map Prod.fst).toList ++ given rest (addition.perform table)

theorem owned_refused (table : SymbolTable) (owner : SymbolId) (kind : SymbolKind) (name : String)
    (ty : ValueType) : table.addOwned owner kind name ty = none ↔ owner ∉ table.functions := by
  rw [SymbolTable.mem_functions_iff]
  cases scope : table.scope? owner with
  | none => simp [SymbolTable.addOwned, scope]
  | some found => simp [SymbolTable.addOwned, scope]

theorem attempt_refused (addition : Addition) (table : SymbolTable) :
    addition.attempt table = none ↔
      ∃ owner, addition.symbol.owner = some owner ∧ owner ∉ table.functions := by
  cases addition with
  | addGlobal | addFunction => simp [attempt, symbol]
  | addParameter | addVariable | addTemporary | addLabel =>
      rw [attempt]
      exact (owned_refused table _ _ _ _).trans (by simp [symbol])

theorem attempt_added (addition : Addition) (table after : SymbolTable) (id : SymbolId)
    (added : addition.attempt table = some (id, after)) :
    id = table.size + 1 ∧ after.symbols = table.symbols ++ [addition.symbol] := by
  cases addition with
  | addGlobal | addFunction =>
      obtain ⟨rfl, rfl⟩ := Prod.ext_iff.mp (Option.some.inj added)
      exact ⟨rfl, rfl⟩
  | addParameter | addVariable | addTemporary | addLabel =>
      exact table.add_owned_symbols after _ id _ _ _ added

theorem attempt_consistent (addition : Addition) (table after : SymbolTable) (id : SymbolId)
    (added : addition.attempt table = some (id, after)) (consistent : table.Consistent) : after.Consistent := by
  cases addition with
  | addGlobal name ty =>
      cases added
      exact table.global_consistent name ty consistent
  | addFunction name ty =>
      cases added
      exact table.function_consistent name ty consistent
  | addParameter | addVariable | addTemporary | addLabel =>
      exact table.owned_consistent after _ id _ _ _ added (by simp) consistent

theorem perform_cases (addition : Addition) (table : SymbolTable) :
    addition.attempt table = none ∧ addition.perform table = table ∨
      addition.attempt table = some (table.size + 1, addition.perform table) ∧
        (addition.perform table).symbols = table.symbols ++ [addition.symbol] := by
  cases attempted : addition.attempt table with
  | none => exact Or.inl ⟨rfl, by rw [perform, attempted]; rfl⟩
  | some pair =>
      obtain ⟨id, after⟩ := pair
      obtain ⟨rfl, symbols⟩ := attempt_added addition table after id attempted
      have same : addition.perform table = after := by
        rw [perform, attempted]
        rfl
      exact Or.inr ⟨by rw [same], by rw [same]; exact symbols⟩

theorem perform_consistent (addition : Addition) (table : SymbolTable) (consistent : table.Consistent) :
    (addition.perform table).Consistent := by
  rcases perform_cases addition table with ⟨_, same⟩ | ⟨added, _⟩
  · rw [same]
    exact consistent
  · exact attempt_consistent addition table _ _ added consistent

theorem perform_all_consistent (additions : List Addition) (table : SymbolTable) (consistent : table.Consistent) :
    (performAll additions table).Consistent := by
  induction additions generalizing table with
  | nil => exact consistent
  | cons addition rest ih => exact ih _ (perform_consistent addition table consistent)

theorem perform_all_grows (additions : List Addition) (table : SymbolTable) :
    table.symbols <+: (performAll additions table).symbols := by
  induction additions generalizing table with
  | nil => exact List.prefix_refl _
  | cons addition rest ih =>
      have step : table.symbols <+: (addition.perform table).symbols := by
        rcases perform_cases addition table with ⟨_, same⟩ | ⟨_, symbols⟩
        · exact same.symm ▸ List.prefix_refl _
        · rw [symbols]
          exact List.prefix_append _ _
      exact step.trans (ih _)

theorem given_ids (additions : List Addition) (table : SymbolTable) :
    ∃ count, given additions table = List.range' (table.size + 1) count ∧
      (performAll additions table).size = table.size + count := by
  induction additions generalizing table with
  | nil => exact ⟨0, rfl, rfl⟩
  | cons addition rest ih =>
      obtain ⟨count, ids, size⟩ := ih (addition.perform table)
      rw [given, ids]
      change ∃ count, _ ∧ (performAll rest (addition.perform table)).size = _
      rcases perform_cases addition table with ⟨refused, same⟩ | ⟨added, symbols⟩
      · rw [same] at size ⊢
        exact ⟨count, by rw [refused]; rfl, size⟩
      · have larger : (addition.perform table).size = table.size + 1 := by
          simp [SymbolTable.size, symbols]
        refine ⟨count + 1, ?_, by lia⟩
        rw [added, larger, List.range'_succ]
        rfl

structure Indexed (table : SymbolTable) : Prop extends table.Consistent where
  absent : ∀ id, table.get? id = none ↔ id = 0 ∨ table.size < id
  parametrized : ∀ function, (table.parameters? function).isSome = true ↔ table.IsFunction function
  localized : ∀ function, (table.locals? function).isSome = true ↔ table.IsFunction function
  named : ∀ name function, table.findFunction? name = some function ↔
    table.IsNamed name function ∧ ∀ other, table.IsNamed name other → function ≤ other

/-- What the next addition does. It is refused where an owner is no function; otherwise its symbol
can be found under the next id for ever after. -/
structure Effect (addition : Addition) (table : SymbolTable) : Prop where
  refused : ∀ owner, addition.symbol.owner = some owner → ¬ table.IsFunction owner →
    addition.attempt table = none ∧ addition.perform table = table
  registered : (∀ owner, addition.symbol.owner = some owner → table.IsFunction owner) →
    addition.attempt table = some (table.size + 1, addition.perform table) ∧
      (addition.perform table).size = table.size + 1 ∧
      ∀ later, (performAll later (addition.perform table)).get? (table.size + 1) = some addition.symbol

theorem consistent_indexed (table : SymbolTable) (consistent : table.Consistent) : Indexed table where
  toConsistent := consistent
  absent := table.get_none_iff
  parametrized function := by
    rw [SymbolTable.parameters?, Option.isSome_map, ← SymbolTable.mem_functions_iff]
    exact consistent.functions.complete function
  localized function := by
    rw [SymbolTable.locals?, Option.isSome_map, ← SymbolTable.mem_functions_iff]
    exact consistent.functions.complete function
  named := table.find_function_iff consistent

theorem consistent_effect (addition : Addition) (table : SymbolTable) (consistent : table.Consistent) :
    addition.Effect table := by
  have functions : ∀ id, id ∈ table.functions ↔ table.IsFunction id := consistent.functions.complete
  have cases := perform_cases addition table
  refine ⟨?_, ?_⟩
  · intro owner owned other
    have refused := (attempt_refused addition table).mpr
      ⟨owner, owned, fun listed => other ((functions owner).mp listed)⟩
    rcases cases with same | ⟨added, _⟩
    · exact same
    · rw [refused] at added
      cases added
  · intro known
    rcases cases with ⟨refused, _⟩ | ⟨added, symbols⟩
    · obtain ⟨owner, owned, other⟩ := (attempt_refused addition table).mp refused
      exact absurd ((functions owner).mpr (known owner owned)) other
    · refine ⟨added, by simp [SymbolTable.size, symbols], ?_⟩
      intro later
      apply SymbolTable.get_of_grown _ _ (perform_all_grows later _)
      exact (table.get_push _ _ symbols _ _).mpr (Or.inr ⟨rfl, rfl⟩)

theorem additions_indexed (additions : List Addition) (table : SymbolTable)
    (built : performAll additions .empty = table) :
    given additions .empty = List.range' 1 table.size ∧ Indexed table ∧
      ∀ addition : Addition, addition.Effect table := by
  have consistent : table.Consistent :=
    built ▸ perform_all_consistent additions .empty SymbolTable.empty_consistent
  obtain ⟨count, ids, size⟩ := given_ids additions .empty
  have all : table.size = count := by
    rw [← built, size]
    exact Nat.zero_add count
  refine ⟨?_, consistent_indexed table consistent, fun addition => consistent_effect addition table consistent⟩
  rw [ids, all]
  rfl

def overloaded : List Addition :=
  [.addGlobal "g" .int, .addParameter 1 "n" .int, .addFunction "f" .void, .addFunction "f" .int,
    .addParameter 3 "n" .int8, .addVariable 2 "x" .int, .addLabel 9 "@0", .addTemporary 3 "&0" .int]

theorem overloaded_indexed : ∃ table, performAll overloaded .empty = table ∧ table.size = 6 ∧
    given overloaded .empty = [1, 2, 3, 4, 5, 6] ∧ Indexed table ∧ table.findFunction? "f" = some 2 ∧
    table.parameters? 3 = some [4] ∧ table.locals? 3 = some [6] ∧ table.parameters? 1 = none ∧
    (Addition.addVariable 5 "y" .int).Effect table := by
  have values : ∃ table, performAll overloaded .empty = table ∧ table.size = 6 ∧
      table.findFunction? "f" = some 2 ∧ table.parameters? 3 = some [4] ∧ table.locals? 3 = some [6] ∧
      table.parameters? 1 = none := ⟨_, rfl, by decide⟩
  obtain ⟨table, built, size, named, parameters, locals, missing⟩ := values
  obtain ⟨ids, indexed, effect⟩ := additions_indexed overloaded table built
  refine ⟨table, built, size, ?_, indexed, named, parameters, locals, missing, effect _⟩
  rw [ids, size]
  rfl

end Addition

end ThreeAddress
