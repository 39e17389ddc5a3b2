import Mathlib.Tactic

/-!
# Ring buffers

An array of `n` slots with a producer index `head` and a consumer index `tail`.
One slot stays free, so that equal indices mean an empty buffer. The contents are
read off as a list, and every operation is described by what it does to that list.
-/
namespace PicoV9k.Rings

variable {α : Type*} {n : ℕ}

structure Ring (α : Type*) (n : ℕ) where
  slots : ℕ → α
  head : ℕ
  tail : ℕ
  head_lt : head < n
  tail_lt : tail < n

namespace Ring

/-- The index behind `i`. -/
def next (n i : ℕ) : ℕ := (i + 1) % n

/-- The way from index `i` up to index `j`, around the end if need be. -/
def span (n i j : ℕ) : ℕ := if i ≤ j then j - i else j + n - i

lemma next_lt {i : ℕ} (h : i < n) : next n i < n := Nat.mod_lt _ (by omega)

lemma next_eq {i : ℕ} (h : i < n) : next n i = if i + 1 = n then 0 else i + 1 := by
  unfold next
  split
  next heq => rw [heq, Nat.mod_self]
  next hne => exact Nat.mod_eq_of_lt (by omega)

def empty (fill : α) (hn : 0 < n) : Ring α n := ⟨fun _ => fill, 0, 0, hn, hn⟩

variable (r : Ring α n)

def IsEmpty : Prop := r.tail = r.head

def IsFull : Prop := next n r.head = r.tail

instance : Decidable r.IsEmpty := inferInstanceAs (Decidable (_ = _))

instance : Decidable r.IsFull := inferInstanceAs (Decidable (_ = _))

/-- Store behind the last element; the caller has checked for room. -/
def push (a : α) : Ring α n :=
  { r with slots := Function.update r.slots r.head a, head := next n r.head, head_lt := next_lt r.head_lt }

/-- The oldest element. -/
def peek : α := r.slots r.tail

def pop : Ring α n := { r with tail := next n r.tail, tail_lt := next_lt r.tail_lt }

/-- Move the consumer index. -/
def seek (i : ℕ) (hi : i < n) : Ring α n := { r with tail := i, tail_lt := hi }

/-- Both indices back to the first slot. -/
def clear : Ring α n :=
  { r with head := 0, tail := 0, head_lt := by have := r.head_lt; omega, tail_lt := by have := r.head_lt; omega }

def length : ℕ := span n r.tail r.head

/-- The index of the element `k` places behind the oldest. -/
def index (k : ℕ) : ℕ := if r.tail + k < n then r.tail + k else r.tail + k - n

/-- The buffer as a list, oldest element first. -/
def contents : List α := (List.range r.length).map fun k => r.slots (r.index k)

variable {r}

@[simp] lemma contents_length : r.contents.length = r.length := by simp [contents]

lemma length_lt : r.length < n := by
  have := r.head_lt
  have := r.tail_lt
  unfold length span
  split <;> omega

lemma isEmpty_iff : r.IsEmpty ↔ r.contents = [] := by
  have := r.head_lt
  have := r.tail_lt
  rw [← List.length_eq_zero_iff, contents_length]
  unfold IsEmpty length span
  split <;> omega

lemma isFull_iff : r.IsFull ↔ r.contents.length + 1 = n := by
  have := r.head_lt
  have := r.tail_lt
  rw [contents_length]
  unfold IsFull length span
  rw [next_eq r.head_lt]
  split <;> split <;> omega

lemma contents_push (h : ¬ r.IsFull) (a : α) : (r.push a).contents = r.contents ++ [a] := by
  have hh := r.head_lt
  have ht := r.tail_lt
  have hlen : (r.push a).length = r.length + 1 := by
    change span n r.tail (next n r.head) = span n r.tail r.head + 1
    unfold IsFull at h
    rw [next_eq hh] at *
    unfold span
    split at h <;> split <;> split <;> split <;> omega
  have hindex : r.index r.length = r.head := by
    unfold index length span
    split <;> split <;> omega
  have hslot : ∀ k, k < r.length → r.index k ≠ r.head := by
    intro k hk
    unfold length span at hk
    unfold index
    split at hk <;> split <;> omega
  unfold contents
  rw [hlen, List.range_succ, List.map_append]
  congr 1
  · apply List.map_congr_left
    intro k hk
    exact Function.update_of_ne (hslot k (List.mem_range.mp hk)) a r.slots
  · have hnew : (r.push a).index r.length = r.head := hindex
    rw [List.map_cons, List.map_nil, hnew]
    simp [push]

/-- Moving the consumer `k` places on drops the `k` oldest elements. -/
lemma contents_seek {k : ℕ} (hk : k ≤ r.length) (hi : r.index k < n) :
    (r.seek (r.index k) hi).contents = r.contents.drop k := by
  have hh := r.head_lt
  have ht := r.tail_lt
  have hlen : (r.seek (r.index k) hi).length = r.length - k := by
    change span n (r.index k) r.head = span n r.tail r.head - k
    unfold length at hk
    unfold span index at *
    split at hk <;> split <;> split <;> omega
  apply List.ext_getElem
  · simp [hlen]
  · intro j hj hj'
    have hlt : j < r.length - k := by simpa [hlen] using hj
    have hindex : (r.seek (r.index k) hi).index j = r.index (k + j) := by
      have := length_lt (r := r)
      simp only [seek, index] at *
      split <;> split <;> split <;> omega
    simp only [contents, List.getElem_map, List.getElem_range, List.getElem_drop, hindex]
    rfl

lemma index_lt {k : ℕ} (hk : k ≤ r.length) : r.index k < n := by
  have := r.head_lt
  have := r.tail_lt
  unfold length span at hk
  unfold index
  split at hk <;> split <;> omega

lemma contents_pop (h : ¬ r.IsEmpty) : r.contents = r.peek :: r.pop.contents := by
  have hh := r.head_lt
  have ht := r.tail_lt
  have hpos : 1 ≤ r.length := by
    unfold IsEmpty at h
    unfold length span
    split <;> omega
  have hindex : r.index 1 = next n r.tail := by
    rw [next_eq ht]
    unfold index
    split <;> split <;> omega
  have hpop : r.pop = r.seek (r.index 1) (index_lt hpos) := by
    unfold pop seek
    simp only [hindex]
  rw [hpop, contents_seek hpos]
  have hlen : 0 < r.contents.length := by
    rw [contents_length]
    exact hpos
  have hfirst : r.contents[0] = r.peek := by simp [contents, peek, index, ht]
  rw [← hfirst]
  exact (List.getElem_cons_drop hlen).symm

end Ring

end PicoV9k.Rings
