import Mathlib.Tactic

/-!
# Windows in a memory whose addresses wrap

A memory of `n` cells addressed modulo `n`. A window is a start address and a
length; storing through a window changes its own cells and no others.
-/
namespace PicoV9k.Wrap

variable {α : Type*} {n : ℕ}

/-- Position of `addr` in a window that starts at `start`. -/
def offset (n start addr : ℕ) : ℕ := (addr + n - start % n) % n

/-- `addr` is one of the `len` cells from `start` on. -/
def InWindow (n start len addr : ℕ) : Prop := addr < n ∧ offset n start addr < len

instance (n start len addr : ℕ) : Decidable (InWindow n start len addr) :=
  inferInstanceAs (Decidable (_ ∧ _))

/-- The memory after `len` values have been stored from `start` on. -/
def write (n : ℕ) (mem : ℕ → α) (start len : ℕ) (data : ℕ → α) : ℕ → α := fun addr =>
  if InWindow n start len addr then data (offset n start addr) else mem addr

lemma offset_mod (start addr : ℕ) : offset n (start % n) addr = offset n start addr := by
  simp [offset]

lemma inWindow_mod (start len addr : ℕ) :
    InWindow n (start % n) len addr ↔ InWindow n start len addr := by
  simp [InWindow, offset_mod]

/-- The cell `i` places after `start` is at offset `i`. -/
lemma offset_add {i : ℕ} (start : ℕ) (hi : i < n) : offset n start ((start + i) % n) = i := by
  have hs : start % n < n := Nat.mod_lt _ (by omega)
  have hsplit : (start + i) % n = (start % n + i) % n := by rw [Nat.mod_add_mod]
  unfold offset
  rw [hsplit]
  rcases Nat.lt_or_ge (start % n + i) n with h | h
  · rw [Nat.mod_eq_of_lt h, show start % n + i + n - start % n = i + n by omega,
      Nat.add_mod_right, Nat.mod_eq_of_lt hi]
  · have hw : (start % n + i) % n = start % n + i - n := by
      rw [Nat.mod_eq_sub_mod h, Nat.mod_eq_of_lt (by omega)]
    rw [hw, show start % n + i - n + n - start % n = i by omega, Nat.mod_eq_of_lt hi]

/-- Seen from a window that starts `d` places later, earlier cells lie at the far end. -/
lemma offset_add_later {i d : ℕ} (start : ℕ) (hid : i < d) (hd : d ≤ n) :
    offset n (start + d) ((start + i) % n) = i + (n - d) := by
  have h : (start + i) % n = (start + d + (i + (n - d))) % n := by
    rw [show start + d + (i + (n - d)) = start + i + n by omega, Nat.add_mod_right]
  rw [h, offset_add _ (by omega)]

lemma write_inside {mem : ℕ → α} {start len i : ℕ} {data : ℕ → α} (hlen : i < len) (hn : i < n) :
    write n mem start len data ((start + i) % n) = data i := by
  have hlt : (start + i) % n < n := Nat.mod_lt _ (by omega)
  simp [write, InWindow, offset_add start hn, hlen, hlt]

lemma write_outside {mem : ℕ → α} {start len addr : ℕ} {data : ℕ → α}
    (h : ¬ InWindow n start len addr) : write n mem start len data addr = mem addr := by
  simp [write, h]

/-- A window that starts `d` places later and does not wrap onto the first `d`
cells misses them. -/
lemma not_inWindow_later {i d : ℕ} (start len : ℕ) (hid : i < d) (hd : d + len ≤ n) :
    ¬ InWindow n (start + d) len ((start + i) % n) := by
  rintro ⟨_, hoff⟩
  rw [offset_add_later start hid (by omega)] at hoff
  omega

/-- A cell of a window is the one at its offset. -/
lemma add_offset {start addr : ℕ} (h : addr < n) : (start + offset n start addr) % n = addr := by
  have hs : start % n < n := Nat.mod_lt _ (by omega)
  have hsum : start % n + offset n start addr = addr ∨ start % n + offset n start addr = addr + n := by
    unfold offset
    rcases Nat.lt_or_ge addr (start % n) with hlt | hge
    · rw [Nat.mod_eq_of_lt (show addr + n - start % n < n by omega)]
      omega
    · rw [show addr + n - start % n = addr - start % n + n by omega, Nat.add_mod_right,
        Nat.mod_eq_of_lt (show addr - start % n < n by omega)]
      omega
  rw [← Nat.mod_add_mod]
  rcases hsum with h' | h' <;> simp [h', Nat.mod_eq_of_lt h]

/-- A memory that holds the data in the window and is unchanged outside is the memory written. -/
lemma eq_write {mem mem' : ℕ → α} {start len : ℕ} {data : ℕ → α}
    (hin : ∀ i < len, mem' ((start + i) % n) = data i)
    (hout : ∀ addr, ¬ InWindow n start len addr → mem' addr = mem addr) :
    mem' = write n mem start len data := by
  funext addr
  by_cases h : InWindow n start len addr
  · rw [write, if_pos h, ← hin _ h.2, add_offset h.1]
  · rw [write_outside h, hout addr h]

end PicoV9k.Wrap
