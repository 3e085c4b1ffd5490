import Mathlib.Data.List.Perm.Subperm
import ThreeAddress.DataFlow

set_option autoImplicit false

namespace ThreeAddress

namespace FactSet

variable {α : Type} [Ord α] [Std.TransOrd α]

theorem join_all_fst (known : FactSet α) (more : List (FactSet α)) (changed : Bool) :
    (more.foldl
      (fun (joined, changed) set =>
        let (union, different) := join joined set
        (union, changed || different))
      (known, changed)).1 = more.foldl (fun joined set => joined ∪ set) known := by
  induction more generalizing known changed with
  | nil => rfl
  | cons set rest ih => exact ih (known ∪ set) _

theorem mem_join_all (known : FactSet α) (more : List (FactSet α)) (x : α) :
    x ∈ (joinAll known more).1 ↔ x ∈ known ∨ ∃ set ∈ more, x ∈ set := by
  rw [joinAll, join_all_fst]
  induction more generalizing known with
  | nil => simp
  | cons set rest ih =>
      rw [List.foldl_cons, ih, Std.ExtTreeSet.mem_union_iff]
      simp only [List.mem_cons, exists_eq_or_imp, or_assoc]

variable [Std.LawfulEqOrd α]

theorem to_list_nodup (set : FactSet α) : set.toList.Nodup := by
  apply List.Pairwise.imp _ (Std.ExtTreeSet.distinct_toList (t := set))
  intro a b different same
  subst same
  exact different Std.ReflCmp.compare_self

theorem size_le (small large : FactSet α) (subset : ∀ x, x ∈ small → x ∈ large) :
    small.size ≤ large.size := by
  rw [← Std.ExtTreeSet.length_toList, ← Std.ExtTreeSet.length_toList]
  apply (List.subperm_of_subset (to_list_nodup small) _).length_le
  intro x member
  rw [Std.ExtTreeSet.mem_toList] at member ⊢
  exact subset x member

theorem size_lt (small large : FactSet α) (subset : ∀ x, x ∈ small → x ∈ large)
    (different : small ≠ large) : small.size < large.size := by
  have extra : ∃ x, x ∈ large ∧ x ∉ small := by
    by_contra none
    apply different
    apply Std.ExtTreeSet.ext_mem
    intro x
    refine ⟨subset x, ?_⟩
    intro member
    by_contra absent
    exact none ⟨x, member, absent⟩
  obtain ⟨x, inside, outside⟩ := extra
  have larger : (x :: small.toList).length ≤ large.toList.length := by
    apply (List.subperm_of_subset _ _).length_le
    · rw [List.nodup_cons, Std.ExtTreeSet.mem_toList]
      exact ⟨outside, to_list_nodup small⟩
    · intro y member
      rw [Std.ExtTreeSet.mem_toList]
      rcases List.mem_cons.mp member with rfl | old
      · exact inside
      · exact subset y (Std.ExtTreeSet.mem_toList.mp old)
  rw [List.length_cons, Std.ExtTreeSet.length_toList, Std.ExtTreeSet.length_toList] at larger
  exact larger

end FactSet

abbrev Slots (α : Type) [Ord α] := List (Option (FactSet α))

namespace Slots

variable {α : Type} [Ord α]

def weight : Slots α → Nat
  | [] => 0
  | none :: rest => weight rest
  | some set :: rest => set.size + weight rest

theorem weight_set (slots : Slots α) (line : Line) (old set : FactSet α)
    (found : slots[line]? = some (some old)) :
    weight (slots.set line (some set)) + old.size = weight slots + set.size := by
  induction slots generalizing line with
  | nil => simp at found
  | cons slot rest ih =>
      cases line with
      | zero =>
          obtain rfl : slot = some old := by simpa using found
          simp only [weight, List.set_cons_zero]
          lia
      | succ line =>
          have deeper := ih line (by simpa using found)
          cases slot with
          | none => exact deeper
          | some kept =>
              simp only [weight, List.set_cons_succ]
              lia

variable [Std.TransOrd α]

def Holds (slots : Slots α) (line : Line) (x : α) : Prop :=
  ∃ set, slots[line]? = some (some set) ∧ x ∈ set

theorem holds_set (slots : Slots α) (line : Line) (set : FactSet α) (bound : line < slots.length)
    (other : Line) (x : α) :
    Holds (slots.set line (some set)) other x ↔
      if other = line then x ∈ set else Holds slots other x := by
  unfold Holds
  by_cases same : other = line
  · subst same
    simp [bound]
  · simp [List.getElem?_set_ne (Ne.symm same), same]

theorem holds_set_cases (slots : Slots α) (line : Line) (set : FactSet α) (other : Line) (x : α)
    (held : Holds (slots.set line (some set)) other x) :
    (other = line ∧ x ∈ set) ∨ Holds slots other x := by
  by_cases bound : line < slots.length
  · rw [holds_set slots line set bound] at held
    by_cases same : other = line
    · rw [if_pos same] at held
      exact Or.inl ⟨same, held⟩
    · rw [if_neg same] at held
      exact Or.inr held
  · rw [List.set_eq_of_length_le (Nat.le_of_not_lt bound)] at held
    exact Or.inr held

variable [Std.LawfulEqOrd α]

theorem weight_le (slots : Slots α) (bound : FactSet α)
    (inside : ∀ line x, Holds slots line x → x ∈ bound) :
    weight slots ≤ slots.countP Option.isSome * bound.size := by
  induction slots with
  | nil => exact Nat.zero_le _
  | cons slot rest ih =>
      have others := ih fun line x held => inside (line + 1) x held
      cases slot with
      | none => simpa [weight] using others
      | some set =>
          have first := FactSet.size_le set bound fun x held => inside 0 x ⟨set, rfl, held⟩
          rw [List.countP_cons_of_pos (by rfl), Nat.succ_mul]
          simp only [weight]
          lia

end Slots

end ThreeAddress
