import ThreeAddress.Proofs.Lowering.Temporaries

set_option autoImplicit false

namespace ThreeAddress

namespace Relation

def holds (x y : Int) : Relation → Bool
  | .eq => x = y
  | .ne => x ≠ y
  | .lt => x < y
  | .gt => y < x
  | .le => x ≤ y
  | .ge => y ≤ x

theorem negate_holds (relation : Relation) (x y : Int) : relation.negate.holds x y = !relation.holds x y := by
  cases relation with
  | eq | ne => simp [negate, holds]
  | lt | gt | le | ge =>
      rw [Bool.eq_iff_iff]
      simp [negate, holds]

end Relation

namespace Condition

variable {w : Nat}

def holds (a b : BitVec w) : Condition → Bool
  | .equal => a = b
  | .notEqual => a ≠ b
  | .below => a.toNat < b.toNat
  | .notBelow => b.toNat ≤ a.toNat
  | .belowOrEqual => a.toNat ≤ b.toNat
  | .above => b.toNat < a.toNat
  | .less => a.toInt < b.toInt
  | .greaterOrEqual => b.toInt ≤ a.toInt
  | .lessOrEqual => a.toInt ≤ b.toInt
  | .greater => b.toInt < a.toInt

def number (signed : Bool) (a : BitVec w) : Int := if signed then a.toInt else a.toNat

theorem number_injective (signed : Bool) (a b : BitVec w) : number signed a = number signed b ↔ a = b := by
  cases signed with
  | true => exact BitVec.toInt_inj
  | false => exact Int.ofNat_inj.trans BitVec.toNat_inj

theorem testing_holds (relation : Relation) (signed : Bool) (a b : BitVec w) :
    (testing relation signed).holds a b = relation.holds (number signed a) (number signed b) := by
  cases relation with
  | eq | ne => simp [testing, holds, Relation.holds, number_injective]
  | lt | gt | le | ge => cases signed <;> simp [testing, holds, Relation.holds, number]

end Condition

def Opcode.tests {w : Nat} (a b : BitVec w) : Opcode → Bool
  | .jumpIf condition | .setIf condition => condition.holds a b
  | _ => false

theorem Opcode.jump_tests {w : Nat} (relation : Relation) (signed : Bool) (a b : BitVec w) :
    (jump relation.negate signed).tests a b = !(set relation signed).tests a b := by
  simp only [jump, set, tests, Condition.testing_holds, Relation.negate_holds]

namespace Lower

/-- Two statements that compare the same operands at the same width, behind the same code. One jumps
unless the relation holds, the other one stores whether it does in a fresh temporary. -/
structure Compared (relation : Relation) (label result : SymbolRef) (state jumped valued : Lowering) (width : Width)
    (signed : Bool) : Prop where
  emitted : ∃ code first second,
    state.Extends jumped (code ++ [⟨width, .jump relation.negate signed, some first, some second,
      some (.symbol label)⟩]) ∧
    state.Extends valued (code ++ [⟨width, .set relation signed, some first, some second,
      some (.symbol result)⟩])
  fresh : Allocates jumped valued result.id
  truth : result.ty = .bool

theorem emit_succeeds (statement : Statement) (fits : statement.conforms = true) (state : Lowering) :
    ∃ line after, emit statement state = .ok line after :=
  ⟨_, _, (emit_ok statement state _ _).mpr ⟨fits, rfl, rfl⟩⟩

section Comparison

variable (relation : Relation) (ty : ValueType) (left right : Node) (label : SymbolRef) (state : Lowering)

theorem comparison_fails (cause : LoweringError) (stopped : Lowering)
    (failed : operands none (valueOf left) (valueOf right) state = .error cause stopped) :
    jumpUnless (.binary (.relational relation) ty left right) label state = .error cause stopped ∧
      value (.binary (.relational relation) ty left right) state = .error cause stopped := by
  refine ⟨?_, ?_⟩
  · rw [jumpUnless, jumpUnlessRelated, bind_run, failed]
  · rw [relational_value, map_eq_pure_bind, bind_run, comparison, bind_run, failed]

theorem comparison_succeeds (inside : state.Inside) (first second : Operand) (common : ValueType) (middle : Lowering)
    (ran : operands none (valueOf left) (valueOf right) state = .ok (first, second, common) middle) :
    ∃ result jumped valued, jumpUnless (.binary (.relational relation) ty left right) label state = .ok () jumped ∧
      value (.binary (.relational relation) ty left right) state = .ok (some (.symbol result)) valued ∧
      Compared relation label result state jumped valued common.width common.isSigned := by
  obtain ⟨code, extended, _⟩ := keeps_ok Lowering.Straight _ (operands_keeps straight_carried none _ _
    (value_of_keeps straight_carried left) (value_of_keeps straight_carried right)) state middle _ ran
  obtain ⟨result, allocated, fresh, _⟩ := (decides_allocate .temporary .bool middle
    (Lowering.inside_extends state middle code extended inside)).1 trivial
  obtain ⟨line, jumped, jump⟩ := emit_succeeds ⟨common.width, .jump relation.negate common.isSigned, some first,
    some second, some (.symbol label)⟩ rfl middle
  obtain ⟨next, valued, store⟩ := emit_succeeds ⟨common.width, .set relation common.isSigned, some first,
    some second, some (.symbol result)⟩ rfl allocated
  obtain ⟨jumpEmitted, sameJumped⟩ := emit_extends _ middle jumped line jump
  obtain ⟨storeEmitted, sameValued⟩ := emit_extends _ allocated valued next store
  refine ⟨result, jumped, valued, ?_, ?_, ⟨code, first, second, ?_, ?_⟩, ?_, ?_⟩
  · rw [jumpUnless, jumpUnlessRelated, bind_run, ran]
    exact (discard_ok _ middle jumped _).mpr ⟨line, jump⟩
  · rw [relational_value, map_eq_pure_bind, bind_run, comparison, bind_run, ran]
    simp only [bind_run, fresh_temporary_allocates, fresh]
    rw [(discard_ok _ allocated valued PUnit.unit).mpr ⟨next, store⟩]
    rfl
  · exact Lowering.extends_trans state middle jumped code _ extended jumpEmitted
  · have allocation := Lowering.extends_trans middle allocated valued [] _
      (allocate_extends .temporary .bool middle allocated result fresh).1 storeEmitted
    exact Lowering.extends_trans state middle valued code _ extended allocation
  · obtain ⟨absent, present⟩ := allocates_fresh .bool middle allocated result fresh
    exact ⟨sameJumped ▸ absent, sameValued ▸ present⟩
  · obtain ⟨_, _, _, rfl, _⟩ := allocate_pushes .temporary .bool middle allocated result fresh
    rfl

end Comparison

theorem comparison_lowerings_agree (relation : Relation) (ty : ValueType) (left right : Node) (label : SymbolRef)
    (state : Lowering) (inside : state.Inside) :
    (∃ cause stopped, jumpUnless (.binary (.relational relation) ty left right) label state = .error cause stopped ∧
        value (.binary (.relational relation) ty left right) state = .error cause stopped) ∨
      ∃ result jumped valued width signed,
        jumpUnless (.binary (.relational relation) ty left right) label state = .ok () jumped ∧
        value (.binary (.relational relation) ty left right) state = .ok (some (.symbol result)) valued ∧
        Compared relation label result state jumped valued width signed ∧
        ∀ a b : BitVec (8 * width.bytes),
          (Opcode.jump relation.negate signed).tests a b = !(Opcode.set relation signed).tests a b := by
  cases ran : operands none (valueOf left) (valueOf right) state with
  | error cause stopped =>
      exact Or.inl ⟨cause, stopped, comparison_fails relation ty left right label state cause stopped ran⟩
  | ok triple middle =>
      obtain ⟨first, second, common⟩ := triple
      obtain ⟨result, jumped, valued, jumps, computes, compared⟩ :=
        comparison_succeeds relation ty left right label state inside first second common middle ran
      exact Or.inr ⟨result, jumped, valued, common.width, common.isSigned, jumps, computes, compared,
        Opcode.jump_tests relation common.isSigned⟩

def narrowState : Lowering := { Lowering.start nestedTable .empty with function := some 3 }

def narrowLeft : Node := .identifier 4 .int8

def narrowRight : Node := .binary .call .uint (.identifier 1 .uint) (.list .arguments [narrowLeft])

theorem narrow_lowerings_agree : narrowState.Inside ∧ ∃ result jumped valued width signed,
    jumpUnless (.binary (.relational .le) .bool narrowLeft narrowRight) ⟨9, .void⟩ narrowState = .ok () jumped ∧
    value (.binary (.relational .le) .bool narrowLeft narrowRight) narrowState =
      .ok (some (.symbol result)) valued ∧
    Compared .le ⟨9, .void⟩ result narrowState jumped valued width signed ∧
    ∀ a b : BitVec (8 * width.bytes),
      (Opcode.jump .gt signed).tests a b = !(Opcode.set .le signed).tests a b := by
  have inside : narrowState.Inside := ⟨3, rfl, by decide⟩
  have succeeds : EStateM.run' (jumpUnless (.binary (.relational .le) .bool narrowLeft narrowRight) ⟨9, .void⟩)
      narrowState = some () := by decide +kernel
  rcases comparison_lowerings_agree .le .bool narrowLeft narrowRight ⟨9, .void⟩ narrowState inside with
    ⟨cause, stopped, failed, _⟩ | agree
  · delta EStateM.run' EStateM.run at succeeds
    rw [failed] at succeeds
    cases succeeds
  · exact ⟨inside, agree⟩

end Lower

end ThreeAddress
