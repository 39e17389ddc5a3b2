import Mathlib.Data.List.Basic
import Mathlib.Data.Nat.ModEq

/-!
# End-around carry

Adding in base `m + 1` with the carry folded back onto the low digit keeps the sum
modulo `m`, in the representatives `1, …, m`; only the empty sum gives zero.
-/
namespace PicoV9k.Framing

/-- The digit that stands for `n`: zero for zero, else the residue in `1, …, m`. -/
def carryDigit (m n : ℕ) : ℕ := if n = 0 then 0 else 1 + (n - 1) % m

/-- One addition in base `m + 1` with its carry folded back. -/
def addCarry (m s v : ℕ) : ℕ := (s + v) / (m + 1) + (s + v) % (m + 1)

variable {m : ℕ}

@[simp] lemma carryDigit_zero : carryDigit m 0 = 0 := rfl

lemma carryDigit_le (hm : 0 < m) (n : ℕ) : carryDigit m n ≤ m := by
  unfold carryDigit
  split
  · exact Nat.zero_le m
  · have h := Nat.mod_lt (n - 1) hm
    omega

lemma carryDigit_of_le {n : ℕ} (h : n ≤ m) : carryDigit m n = n := by
  unfold carryDigit
  split
  next hn => exact hn.symm
  next hn =>
    rw [Nat.mod_eq_of_lt (by omega)]
    omega

lemma carryDigit_add_self {n : ℕ} (h : 0 < n) : carryDigit m (n + m) = carryDigit m n := by
  have hshift : n + m - 1 = n - 1 + m := by omega
  unfold carryDigit
  rw [if_neg (by omega), if_neg (by omega), hshift, Nat.add_mod_right]

/-- The fold of one addition is the digit of the sum. -/
lemma addCarry_eq {s v : ℕ} (hs : s ≤ m) (hv : v ≤ m) : addCarry m s v = carryDigit m (s + v) := by
  unfold addCarry
  by_cases hsum : s + v ≤ m
  · rw [carryDigit_of_le hsum, Nat.div_eq_of_lt (by omega), Nat.mod_eq_of_lt (by omega)]
    omega
  · obtain ⟨r, hr⟩ : ∃ r, s + v = r + m := ⟨s + v - m, by omega⟩
    have hquot : (s + v) / (m + 1) = 1 := by
      rw [Nat.div_eq_iff (by omega)]
      omega
    have hrem : (s + v) % (m + 1) = r - 1 := by
      rw [Nat.mod_eq_sub_mod (by omega), Nat.mod_eq_of_lt (by omega)]
      omega
    rw [hquot, hrem, hr, carryDigit_add_self (by omega), carryDigit_of_le (by omega)]
    omega

/-- A partial sum may be replaced by its digit. -/
lemma carryDigit_add (n v : ℕ) : carryDigit m (carryDigit m n + v) = carryDigit m (n + v) := by
  by_cases hn : n = 0
  · rw [hn, carryDigit_zero]
  · have hdigit : carryDigit m n = 1 + (n - 1) % m := if_neg hn
    have hleft : 1 + (n - 1) % m + v - 1 = (n - 1) % m + v := by omega
    have hright : n + v - 1 = n - 1 + v := by omega
    rw [hdigit]
    unfold carryDigit
    rw [if_neg (by omega), if_neg (by omega), hleft, hright, Nat.mod_add_mod]

/-- Folding any number of additions gives the digit of the total. -/
theorem foldl_addCarry (hm : 0 < m) (l : List ℕ) (hl : ∀ v ∈ l, v ≤ m) (n : ℕ) :
    l.foldl (addCarry m) (carryDigit m n) = carryDigit m (n + l.sum) := by
  induction l generalizing n with
  | nil => rfl
  | cons v l ih =>
    have hv := hl v List.mem_cons_self
    have hrest : ∀ w ∈ l, w ≤ m := fun w hw => hl w (List.mem_cons_of_mem v hw)
    rw [List.foldl_cons, addCarry_eq (carryDigit_le hm n) hv, carryDigit_add, ih hrest,
      List.sum_cons, Nat.add_assoc]

/-- Totals that differ by less than `m` have different digits. -/
lemma carryDigit_injOn {n k : ℕ} (hk : k ≤ m) (h : carryDigit m (n + k) = carryDigit m n) :
    k = 0 ∨ (k = m ∧ 0 < n) := by
  by_cases hn : n = 0
  · rw [hn, Nat.zero_add, carryDigit_of_le hk] at h
    exact .inl h
  · by_cases hzero : k = 0
    · exact .inl hzero
    · have hshift : n + k - 1 = n - 1 + k := by omega
      unfold carryDigit at h
      rw [if_neg (by omega), if_neg hn, hshift] at h
      have hmod : (n - 1 + k) ≡ (n - 1 + 0) [MOD m] := Nat.add_left_cancel h
      have hdvd : m ∣ k := (Nat.modEq_zero_iff_dvd).mp (Nat.ModEq.add_left_cancel' _ hmod)
      exact .inr ⟨Nat.le_antisymm hk (Nat.le_of_dvd (by omega) hdvd), by omega⟩

end PicoV9k.Framing
