import Mathlib.Tactic

/-!
# Histories of a memory

The accesses to a memory in the order they happened. What a cell holds depends on
the stores to that cell only, and in a faithful history each load returns it.
-/
namespace PicoV9k.Cells

variable {A V : Type*} [DecidableEq A]

inductive Access (A V : Type*)
  | store (address : A) (value : V)
  | load (address : A) (value : V)

/-- The memory after the accesses. -/
def replay (mem : A → V) : List (Access A V) → A → V
  | [] => mem
  | .store a v :: log => replay (Function.update mem a v) log
  | .load _ _ :: log => replay mem log

/-- Each load returns what its cell holds at that moment. -/
def Faithful (mem : A → V) : List (Access A V) → Prop
  | [] => True
  | .store a v :: log => Faithful (Function.update mem a v) log
  | .load a v :: log => v = mem a ∧ Faithful mem log

/-- The value that an access puts into cell `a`. -/
def Access.storeAt (a : A) : Access A V → Option V
  | .store b v => if b = a then some v else none
  | .load _ _ => none

lemma replay_append (mem : A → V) (log log' : List (Access A V)) :
    replay mem (log ++ log') = replay (replay mem log) log' := by
  induction log generalizing mem with
  | nil => rfl
  | cons x log ih => cases x <;> exact ih _

lemma faithful_append {mem : A → V} {log log' : List (Access A V)} (h : Faithful mem log)
    (h' : Faithful (replay mem log) log') : Faithful mem (log ++ log') := by
  induction log generalizing mem with
  | nil => exact h'
  | cons x log ih =>
    cases x with
    | store a v => exact ih h h'
    | load a v => exact ⟨h.1, ih h.2 h'⟩

/-- A cell holds what was last stored there, or what it held at first. -/
theorem replay_eq (mem : A → V) (log : List (Access A V)) (a : A) :
    replay mem log a = (log.filterMap (Access.storeAt a)).getLast?.getD (mem a) := by
  induction log generalizing mem with
  | nil => rfl
  | cons x log ih =>
    cases x with
    | load b v => exact ih mem
    | store b v =>
      rw [replay, ih]
      by_cases hb : b = a
      · subst hb
        cases hlog : log.filterMap (Access.storeAt b) with
        | nil => simp [Access.storeAt, hlog]
        | cons w rest => simp [Access.storeAt, hlog, List.getLast?_cons]
      · simp [Access.storeAt, hb, Function.update_of_ne (Ne.symm hb)]

/-- Equal stores to a cell, in the same order, leave it equal. -/
lemma replay_congr {mem : A → V} {log log' : List (Access A V)} {a : A}
    (h : log.filterMap (Access.storeAt a) = log'.filterMap (Access.storeAt a)) :
    replay mem log a = replay mem log' a := by
  rw [replay_eq, replay_eq, h]

/-- A cell that is stored, and always with the same value, holds it. -/
lemma replay_stored {mem : A → V} {log : List (Access A V)} {a : A} {v : V}
    (hstored : ∃ x ∈ log, x.storeAt a = some v)
    (hsame : ∀ x ∈ log, ∀ w, x.storeAt a = some w → w = v) : replay mem log a = v := by
  obtain ⟨x, hx, hv⟩ := hstored
  have hmem : v ∈ log.filterMap (Access.storeAt a) := List.mem_filterMap.mpr ⟨x, hx, hv⟩
  obtain ⟨w, hw⟩ := Option.ne_none_iff_exists'.mp
    (mt List.getLast?_eq_none_iff.mp (List.ne_nil_of_mem hmem))
  obtain ⟨y, hy, hyw⟩ := List.mem_filterMap.mp (List.mem_of_getLast? hw)
  rw [replay_eq, hw, hsame y hy w hyw]
  rfl

/-- A load of a cell that nothing is stored to returns what it held at first. -/
lemma Faithful.load {mem : A → V} {log : List (Access A V)} (h : Faithful mem log) {a : A} {v : V}
    (hload : .load a v ∈ log) (hnone : ∀ x ∈ log, x.storeAt a = none) : v = mem a := by
  induction log generalizing mem with
  | nil => cases hload
  | cons x log ih =>
    have hrest : ∀ x ∈ log, x.storeAt a = none := fun x hx => hnone x (List.mem_cons_of_mem _ hx)
    cases x with
    | load b w =>
      rcases List.mem_cons.mp hload with heq | hload
      · cases heq
        exact h.1
      · exact ih h.2 hload hrest
    | store b w =>
      have hb : b ≠ a := by
        intro hb
        have := hnone _ (List.mem_cons_self ..)
        simp [Access.storeAt, hb] at this
      rcases List.mem_cons.mp hload with heq | hload
      · cases heq
      · rw [ih h hload hrest, Function.update_of_ne hb.symm]

end PicoV9k.Cells
