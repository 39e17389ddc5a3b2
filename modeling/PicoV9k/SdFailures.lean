import PicoV9k.SdRuns

/-!
# When a drive is taken offline

The backend counts the failed reads, writes and syncs of each target and disables a
target at the fiftieth. The counts are measured here against the history of the run:
what reached the card since the target was last mounted.
-/
namespace PicoV9k.Storage
open PicoV9k.Bus PicoV9k.Runs

/-- What a run leaves in its history, newest first. -/
inductive SdEvent
  | mounted (target : ℕ)
  | access (kind : SdKind) (target : ℕ) (ok : Bool)
  deriving DecidableEq

/-- The event of an operation, if it mounts a target or reaches the card. -/
def SdOp.event (s : SdState) (op : SdOp) : List SdEvent :=
  match op.access s, op with
  | some (k, t), _ => [.access k t (sdStep s op).2]
  | none, .mount _ t _ _ => if (sdStep s op).2 then [.mounted t] else []
  | none, _ => []

/-- A run with its history. -/
structure SdTrace where
  state : SdState
  history : List SdEvent

def SdTrace.next (x : SdTrace) (op : SdOp) : SdTrace :=
  ⟨(sdStep x.state op).1, op.event x.state ++ x.history⟩

/-- The results of the accesses of one kind to target `t` since it was last mounted, newest first. -/
def sinceMount (k : SdKind) (t : ℕ) : List SdEvent → List Bool
  | [] => []
  | .mounted t' :: history => if t' = t then [] else sinceMount k t history
  | .access k' t' ok :: history =>
    if k' = k ∧ t' = t then ok :: sinceMount k t history else sinceMount k t history

/-- The last `n` accesses since the mount exist and have all failed. -/
def FailedLast (n : ℕ) (results : List Bool) : Prop :=
  n ≤ results.length ∧ ∀ ok ∈ results.take n, ok = false

instance (n : ℕ) (results : List Bool) : Decidable (FailedLast n results) :=
  inferInstanceAs (Decidable (_ ∧ _))

/-- No failures of an earlier mount are left over when a target is mounted. -/
def SdOp.StartsClean (s : SdState) (op : SdOp) : Prop :=
  match op with
  | .mount _ t _ _ => (sdStep s op).2 = true → ∀ k, s.count k t = 0
  | _ => True

lemma FailedLast.zero (results : List Bool) : FailedLast 0 results :=
  ⟨Nat.zero_le _, fun _ hok => absurd hok (by simp)⟩

lemma FailedLast.cons {n : ℕ} {results : List Bool} (h : FailedLast n results) :
    FailedLast (n + 1) (false :: results) := by
  refine ⟨Nat.succ_le_succ h.1, fun ok hok => ?_⟩
  rw [List.take_succ_cons, List.mem_cons] at hok
  obtain rfl | hok := hok
  · rfl
  · exact h.2 ok hok

lemma FailedLast.mono {n m : ℕ} {results : List Bool} (h : FailedLast n results) (hm : m ≤ n) :
    FailedLast m results :=
  ⟨hm.trans h.1, fun ok hok => h.2 ok ((List.take_subset_take_left results hm) hok)⟩

@[simp] lemma SdState.setCount_count (s : SdState) (k k' : SdKind) (t t' n : ℕ) :
    (s.setCount k t n).count k' t' = if k' = k ∧ t' = t then n else s.count k' t' := by
  cases k <;> cases k' <;> simp [SdState.setCount, SdState.count, Function.update_apply]

lemma sdStorageTryRemount_count (io : RemountIo) (s : SdState) (k : SdKind) (t : ℕ) :
    (sdStorageTryRemount io s).1.count k t = s.count k t := by
  unfold sdStorageTryRemount
  split <;> cases k <;> rfl

lemma sdRecover_count (io : SdIo) (s : SdState) (t : ℕ) (k : SdKind) (t' : ℕ) :
    (sdRecover io s t).1.count k t' = s.count k t' := by
  have hremount := sdStorageTryRemount_count io.remount s k t'
  unfold sdRecover
  split
  · split
    next s' heq => rwa [heq] at hremount
    next s' heq => rwa [heq] at hremount
  · rfl

lemma SdState.disableAfter_count (s : SdState) (t failures : ℕ) (k : SdKind) (t' : ℕ) :
    (s.disableAfter t failures).count k t' = s.count k t' := by
  unfold SdState.disableAfter
  split
  · cases k <;> rfl
  · rfl

/-- A success clears the count of its kind and target, and a failure adds one. -/
lemma Accessed.count {io : SdIo} {s : SdState} {k : SdKind} {t : ℕ} {exhausted : Bool}
    {r : SdState × Bool} (h : Accessed io s k t exhausted r) (k' : SdKind) (t' : ℕ) :
    r.1.count k' t' =
      if k' = k ∧ t' = t then (if r.2 then 0 else s.count k t + 1) else s.count k' t' := by
  have hcleared (s : SdState) (files : Path → ℕ → Sector) (errors : ℕ) :
      ({ s.setCount k t 0 with files := files, consecutiveIoErrors := errors } : SdState).count k' t' =
        (s.setCount k t 0).count k' t' := by
    cases k' <;> rfl
  have hfailed (files : Path → ℕ → Sector) : (s.failed k t files).count k' t' =
      (s.setCount k t (s.count k t + 1)).count k' t' := by
    cases k' <;> rfl
  have hfiles (s : SdState) (files : Path → ℕ → Sector) :
      ({ s with files := files } : SdState).count k' t' = s.count k' t' := by
    cases k' <;> rfl
  cases h with
  | done files =>
    rw [hcleared, SdState.setCount_count]
    rfl
  | recovered files files' errors =>
    rw [hcleared, SdState.setCount_count, sdRecover_count, hfailed, SdState.setCount_count]
    split <;> rfl
  | failed files files' =>
    rw [SdState.disableAfter_count, hfiles, sdRecover_count, hfailed, SdState.setCount_count]
    rfl

lemma sdOpenImage_count (io : SdIo) (s : SdState) (k : SdKind) (t : ℕ) :
    (sdOpenImage io s).1.count k t = s.count k t := by
  obtain heq | heq := sdOpenImage_cases io s
  · rw [heq]
  · rw [heq, sdStorageTryRemount_count]

lemma sdStorageUnmount_count (s : SdState) (t : ℕ) (k : SdKind) (t' : ℕ) :
    (sdStorageUnmount s t).1.count k t' = s.count k t' := by
  unfold sdStorageUnmount
  split
  · rfl
  · split
    · rfl
    · cases k <;> rfl

lemma sdMountBase_count (s : SdState) (t : ℕ) (k : SdKind) (t' : ℕ) :
    (sdMountBase s t).count k t' = s.count k t' := by
  unfold sdMountBase
  split
  · exact sdStorageUnmount_count s t k t'
  · rfl

lemma sdStorageMount_count (io : SdIo) (s : SdState) (t : ℕ) (image : Path) (readOnly : Bool)
    (k : SdKind) (t' : ℕ) : (sdStorageMount io s t image readOnly).1.count k t' = s.count k t' := by
  have hopen : (sdOpenImage io (sdMountBase s t)).1.count k t' = s.count k t' := by
    rw [sdOpenImage_count, sdMountBase_count]
  obtain ⟨heq, _⟩ | ⟨_, _, ⟨_, heq⟩ | ⟨_, heq⟩⟩ := sdStorageMount_cases io s t image readOnly
  · rw [heq]
  · rw [heq]
    exact hopen
  · rw [heq, ← hopen]
    cases k <;> rfl

lemma sdStorageListImages_count (io : ListIo) (s : SdState) (k : SdKind) (t : ℕ) :
    (sdStorageListImages io s).1.count k t = s.count k t := by
  have hremount := sdStorageTryRemount_count io.remount s k t
  unfold sdStorageListImages
  split
  · rfl
  · dsimp only
    split
    · split
      next s' heq => rwa [heq] at hremount
      next s' heq => rwa [heq] at hremount
    · rfl

lemma sdStorageInit_count (io : SdIo) (s : SdState) (k : SdKind) (t : ℕ) :
    (sdStorageInit io s).1.count k t = s.count k t := by
  unfold sdStorageInit
  split
  · rfl
  · split
    · rfl
    · split
      · rfl
      · cases k <;> rfl

/-- Only accesses that reach the card move the counts. -/
lemma sdStep_count {s : SdState} {op : SdOp} (h : op.access s = none) (k : SdKind) (t : ℕ) :
    (sdStep s op).1.count k t = s.count k t := by
  cases op with
  | init io => exact sdStorageInit_count io s k t
  | mount io u image readOnly => exact sdStorageMount_count io s u image readOnly k t
  | unmount u => exact sdStorageUnmount_count s u k t
  | read io u lba => exact congrArg (fun r => r.1.count k t) (sdStorageReadSector_rejected h)
  | write io u lba data => exact congrArg (fun r => r.1.count k t) (sdStorageWriteSector_rejected h)
  | sync io u => exact congrArg (fun r => r.1.count k t) (sdStorageSync_rejected h)
  | list io => exact sdStorageListImages_count io s k t

/-- As many failures as the count says are the last thing that happened since the mount. -/
def SdTrace.Counted (x : SdTrace) : Prop :=
  ∀ k t, FailedLast (x.state.count k t) (sinceMount k t x.history)

lemma SdTrace.Counted.next {x : SdTrace} {op : SdOp} (h : x.Counted) (hclean : op.StartsClean x.state) :
    (x.next op).Counted := by
  intro k t
  have hold := h k t
  unfold SdTrace.next SdOp.event
  cases haccess : op.access x.state with
  | some a =>
    obtain ⟨k', t'⟩ := a
    obtain ⟨io, hshape, _⟩ := sdStep_access haccess
    have hcount := hshape.count k t
    dsimp only [List.cons_append, List.nil_append, sinceMount]
    rw [hcount]
    by_cases hsame : k' = k ∧ t' = t
    · obtain ⟨rfl, rfl⟩ := hsame
      have hself : k' = k' ∧ t' = t' := ⟨rfl, rfl⟩
      rw [if_pos hself, if_pos hself]
      cases (sdStep x.state op).2 with
      | true => exact .zero _
      | false => exact hold.cons
    · have hsame' : ¬(k = k' ∧ t = t') := fun hs => hsame ⟨hs.1.symm, hs.2.symm⟩
      rw [if_neg hsame, if_neg hsame']
      exact hold
  | none =>
    have hcount := sdStep_count haccess k t
    dsimp only
    rw [hcount]
    cases op with
    | mount io u image readOnly =>
      dsimp only
      by_cases hok : (sdStep x.state (.mount io u image readOnly)).2 = true
      · rw [if_pos hok, List.cons_append, List.nil_append, sinceMount]
        by_cases hsame : u = t
        · rw [hsame] at hok hclean
          rw [hclean hok k]
          exact .zero _
        · rw [if_neg hsame]
          exact hold
      · rw [if_neg hok]
        exact hold
    | _ => exact hold

end PicoV9k.Storage
