/-
Shares of an amount, one for each member of a finite family.

Writing one member changes the sum by the difference, and moving an amount from one
member to another does not change it.  That is so in any commutative group, of words
that wrap as well as of integers.
-/
import Mathlib.Algebra.BigOperators.Group.Finset.Piecewise
import Mathlib.Algebra.Order.BigOperators.Group.Finset
import Mathlib.Tactic.Abel

namespace Share

section

variable {ι κ α G : Type*} [Fintype ι] [DecidableEq ι] [DecidableEq κ] [AddCommGroup G]

theorem sum_update (f : ι → G) (i : ι) (v : G) :
    ∑ j, Function.update f i v j = ∑ j, f j + (v - f i) := by
  have hsplit : ∑ j, f j = f i + ∑ j ∈ Finset.univ \ {i}, f j := by
    rw [← Finset.sum_sdiff (Finset.subset_univ {i}), Finset.sum_singleton, add_comm]
  rw [Finset.sum_update_of_mem (Finset.mem_univ i), hsplit]
  abel

/-- The same for an amount read off records. -/
theorem sum_amount (amount : α → G) (q : ι → α) (i : ι) (a : α) :
    ∑ j, amount (Function.update q i a j) = ∑ j, amount (q j) + (amount a - amount (q i)) := by
  have hupdate : (fun j => amount (Function.update q i a j)) =
      Function.update (fun j => amount (q j)) i (amount a) := by
    funext j
    by_cases hj : j = i
    · subst hj
      simp
    · simp [hj]
  rw [hupdate, sum_update]

/-- Writing one of the records a sum goes over. -/
theorem sum_write {u : Finset κ} {i : κ} (hi : i ∈ u) (amount : α → G) (q : κ → α) (a : α) :
    ∑ j ∈ u, amount (Function.update q i a j) = ∑ j ∈ u, amount (q j) + (amount a - amount (q i)) := by
  rw [← Finset.add_sum_erase u _ hi, ← Finset.add_sum_erase u (fun j => amount (q j)) hi,
    Function.update_self]
  have hrest : ∑ j ∈ u.erase i, amount (Function.update q i a j) = ∑ j ∈ u.erase i, amount (q j) := by
    refine Finset.sum_congr rfl fun j hj => ?_
    rw [Function.update_of_ne (Finset.ne_of_mem_erase hj)]
  rw [hrest]
  abel

/-- Writing a record without changing its amount. -/
theorem sum_write_same (u : Finset κ) (i : κ) (amount : α → G) (q : κ → α) {a : α}
    (h : amount a = amount (q i)) :
    ∑ j ∈ u, amount (Function.update q i a j) = ∑ j ∈ u, amount (q j) := by
  refine Finset.sum_congr rfl fun j _ => ?_
  by_cases hj : j = i
  · subst hj
    rw [Function.update_self, h]
  · rw [Function.update_of_ne hj]

end

/-- Two members together get less, and no other gets more. -/
theorem sum_lt_of_pair {κ : Type*} [DecidableEq κ] {u : Finset κ} {f g : κ → Nat} {i j : κ}
    (hi : i ∈ u) (hj : j ∈ u) (hij : i ≠ j) (hlt : f i + f j < g i + g j)
    (hle : ∀ k ∈ u, k ≠ i → k ≠ j → f k ≤ g k) : ∑ k ∈ u, f k < ∑ k ∈ u, g k := by
  have hj' : j ∈ u.erase i := Finset.mem_erase.mpr ⟨hij.symm, hj⟩
  rw [← Finset.add_sum_erase u f hi, ← Finset.add_sum_erase u g hi,
    ← Finset.add_sum_erase _ f hj', ← Finset.add_sum_erase _ g hj']
  have hrest : ∑ k ∈ (u.erase i).erase j, f k ≤ ∑ k ∈ (u.erase i).erase j, g k := by
    refine Finset.sum_le_sum fun k hk => ?_
    obtain ⟨hkj, hk⟩ := Finset.mem_erase.mp hk
    obtain ⟨hki, hk⟩ := Finset.mem_erase.mp hk
    exact hle k hk hki hkj
  omega

end Share
