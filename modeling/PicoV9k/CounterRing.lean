import Mathlib.Data.BitVec
import Mathlib.Tactic

/-!
# Rings with free-running counters

An array of `n` slots whose producer and consumer each count up a word of `w` bits that
wraps. The slot of a count is its remainder, so `n` divides `2 ^ w`; no slot stays free.
-/
namespace PicoV9k.Rings

structure CounterRing (α : Type*) (w n : ℕ) where
  slots : ℕ → α
  write : BitVec w
  read : BitVec w
  dvd : n ∣ 2 ^ w
  room : 0 < n ∧ n < 2 ^ w

namespace CounterRing

variable {α : Type*} {w n : ℕ}

def empty (fill : α) (dvd : n ∣ 2 ^ w) (room : 0 < n ∧ n < 2 ^ w) : CounterRing α w n :=
  ⟨fun _ => fill, 0, 0, dvd, room⟩

variable (r : CounterRing α w n)

def waiting : ℕ := (r.write - r.read).toNat

/-- The slot of the element `k` places behind the oldest. -/
def index (k : ℕ) : ℕ := (r.read.toNat + k) % n

/-- The buffer as a list, oldest element first. -/
def contents : List α := (List.range r.waiting).map fun k => r.slots (r.index k)

/-- The slot a count stands for. -/
def slot (count : BitVec w) : α := r.slots (count.toNat % n)

/-- Store in the slot that comes next, without counting it. -/
def store (a : α) : CounterRing α w n := { r with slots := Function.update r.slots (r.write.toNat % n) a }

def publish : CounterRing α w n := { r with write := r.write + 1 }

def pop : CounterRing α w n := { r with read := r.read + 1 }

variable {r}

@[simp] lemma contents_length : r.contents.length = r.waiting := by simp [contents]

@[simp] lemma contents_empty (fill : α) (dvd : n ∣ 2 ^ w) (room : 0 < n ∧ n < 2 ^ w) :
    (empty fill dvd room : CounterRing α w n).contents = [] := by
  simp [contents, waiting, empty]

lemma write_eq : r.write = r.read + (r.write - r.read) := by ring

lemma write_index : r.write.toNat % n = r.index r.waiting := by
  have hsum : r.write.toNat = (r.read.toNat + r.waiting) % 2 ^ w := by
    conv_lhs => rw [write_eq, BitVec.toNat_add]
    rfl
  rw [hsum, Nat.mod_mod_of_dvd _ r.dvd]
  rfl

lemma one_toNat (r : CounterRing α w n) : (1 : BitVec w).toNat = 1 := by
  have hroom : 1 < 2 ^ w := by
    have := r.room
    omega
  exact (BitVec.toNat_ofNat 1 w).trans (Nat.mod_eq_of_lt hroom)

lemma index_inj {i j : ℕ} (hi : i < n) (hj : j < n) (h : r.index i = r.index j) : i = j := by
  have hmod : i ≡ j [MOD n] := Nat.ModEq.add_left_cancel' r.read.toNat h
  exact hmod.eq_of_lt_of_lt hi hj

/-- A store into a free slot is not seen. -/
lemma contents_store (h : r.waiting < n) (a : α) : (r.store a).contents = r.contents := by
  apply List.map_congr_left
  intro k hk
  have hlt : k < r.waiting := List.mem_range.mp hk
  have hne : r.index k ≠ r.write.toNat % n := by
    intro heq
    rw [write_index] at heq
    exact absurd (index_inj (by omega) h heq) hlt.ne
  exact Function.update_of_ne hne a r.slots

@[simp] lemma slot_store (a : α) : (r.store a).slot r.write = a := by
  simp [slot, store]

lemma waiting_publish (h : r.waiting < n) : r.publish.waiting = r.waiting + 1 := by
  have hsum : r.publish.write - r.publish.read = r.write - r.read + 1 := by
    unfold publish
    ring
  have hroom := r.room
  unfold waiting at *
  rw [hsum, BitVec.toNat_add, one_toNat r, Nat.mod_eq_of_lt (by omega)]

lemma contents_publish (h : r.waiting < n) : r.publish.contents = r.contents ++ [r.slot r.write] := by
  unfold contents
  rw [waiting_publish h, List.range_succ, List.map_append, List.map_cons, List.map_nil]
  unfold slot
  rw [write_index]
  rfl

lemma empty_iff : r.read = r.write ↔ r.contents = [] := by
  rw [← List.length_eq_zero_iff, contents_length]
  unfold waiting
  constructor
  · intro h
    simp [h]
  · intro h
    have hzero : r.write - r.read = 0 := BitVec.eq_of_toNat_eq (by simpa using h)
    rw [write_eq, hzero, add_zero]

lemma waiting_pop (h : r.read ≠ r.write) : r.waiting = r.pop.waiting + 1 := by
  have hsum : r.write - r.read = r.pop.write - r.pop.read + 1 := by
    unfold pop
    ring
  have hne : r.pop.write - r.pop.read + 1 ≠ 0 := by
    rw [← hsum]
    exact sub_ne_zero.mpr h.symm
  unfold waiting
  rw [hsum, BitVec.toNat_add, one_toNat r]
  apply Nat.mod_eq_of_lt
  by_contra hwrap
  have hfull : (r.pop.write - r.pop.read).toNat + 1 = 2 ^ w := by
    have := (r.pop.write - r.pop.read).isLt
    omega
  apply hne
  apply BitVec.eq_of_toNat_eq
  rw [BitVec.toNat_add, one_toNat r, hfull]
  simp

lemma index_pop (k : ℕ) : r.pop.index k = r.index (k + 1) := by
  have hnext : r.pop.read.toNat % n = (r.read.toNat + 1) % n := by
    unfold pop
    rw [BitVec.toNat_add, one_toNat r, Nat.mod_mod_of_dvd _ r.dvd]
  unfold index
  rw [← Nat.mod_add_mod, hnext, Nat.mod_add_mod, add_assoc, add_comm 1 k]

lemma contents_pop (h : r.read ≠ r.write) : r.contents = r.slot r.read :: r.pop.contents := by
  unfold contents
  rw [waiting_pop h, List.range_succ_eq_map, List.map_cons, List.map_map]
  congr 1
  apply List.map_congr_left
  intro k hk
  rw [index_pop]
  rfl

end CounterRing

end PicoV9k.Rings
