import PicoV9k.StorageOwnership

/-!
# Runs of the SD backend

A target that is marked mounted is backed by an open file of the volume in use. A
recovery takes every file away and gives it back, and so it is the one place where
this can go wrong: it leaves the marks alone when the volume does not come back.
-/
namespace PicoV9k.Storage
open PicoV9k.Bus PicoV9k.Runs

/-- FatFS during one listing. -/
structure ListIo where
  openDir : FResult
  remount : RemountIo
  openDir2 : FResult
  dirEntries : List Path

/-- `sd_storage_list_images`, with its one retry after a remount: the names emitted. -/
def sdStorageListImages (io : ListIo) (s : SdState) : SdState × List Path :=
  if !s.initialized then (s, [])
  else
    let (s, fr) :=
      if io.openDir ≠ .ok then
        match sdStorageTryRemount io.remount s with
        | (s, true) => (s, io.openDir2)
        | (s, false) => (s, io.openDir)
      else (s, io.openDir)
    (s, if fr = .ok then (io.dirEntries.takeWhile (· ≠ [])).filter matchesPattern else [])

inductive SdOp
  | init (io : SdIo)
  | mount (io : SdIo) (target : ℕ) (image : Path) (readOnly : Bool)
  | unmount (target : ℕ)
  | read (io : SdIo) (target lba : ℕ)
  | write (io : SdIo) (target lba : ℕ) (data : Sector)
  | sync (io : SdIo) (target : ℕ)
  | list (io : ListIo)

/-- An operation of the backend: the state behind it, and whether it succeeds. -/
def sdStep (s : SdState) : SdOp → SdState × Bool
  | .init io => sdStorageInit io s
  | .mount io t image readOnly => sdStorageMount io s t image readOnly
  | .unmount t => sdStorageUnmount s t
  | .read io t lba => ((sdStorageReadSector io s t lba).1, (sdStorageReadSector io s t lba).2.isSome)
  | .write io t lba data => sdStorageWriteSector io s t lba data
  | .sync io t => sdStorageSync io s t
  | .list io => ((sdStorageListImages io s).1, true)

def sdRun (s : SdState) (op : SdOp) : Option SdState := some (sdStep s op).1

inductive SdKind
  | read | write | sync
  deriving DecidableEq

/-- An access that passes the checks in front of the card: its kind and its target. -/
def SdOp.access (s : SdState) : SdOp → Option (SdKind × ℕ)
  | .read _ t lba =>
    if s.initialized ∧ t < storageMaxTargets ∧ (s.targets t).mounted ∧ lba < (s.targets t).capacitySectors
    then some (.read, t) else none
  | .write _ t lba _ =>
    if s.initialized ∧ t < storageMaxTargets ∧ (s.targets t).mounted ∧ (s.targets t).readOnly = false ∧
      lba < (s.targets t).capacitySectors
    then some (.write, t) else none
  | .sync _ t =>
    if s.initialized ∧ t < storageMaxTargets ∧ (s.targets t).mounted then some (.sync, t) else none
  | _ => none

/-- The three attempts of an access all fail. -/
def SdOp.exhausted (s : SdState) : SdOp → Bool
  | .read io t lba => ((List.range 3).findSome? (sdReadAttempt io s (s.targets t).file lba)).isNone
  | .write io t lba data => !(sdWriteRetry io (s.targets t).file lba data 3 s).2
  | .sync io _ => !(List.range 3).any fun a => io.sync a == .ok
  | _ => false

/-- The recovery that an operation attempts, and the state in which it does. -/
def SdOp.recovery (s : SdState) (op : SdOp) : Option (RemountIo × SdState) :=
  match op with
  | .mount io t _ _ =>
    if s.initialized ∧ t < storageMaxTargets ∧ ¬(io.open1.1 = .ok ∨ io.open1.1.isMissing) then
      some (io.remount, sdMountBase s t)
    else none
  | .list io => if s.initialized ∧ io.openDir ≠ .ok then some (io.remount, s) else none
  | .read io _ _ | .write io _ _ _ | .sync io _ =>
    if (op.access s).isSome ∧ op.exhausted s ∧ s.consecutiveIoErrors + 1 = sdRemountThreshold then
      some (io.remount, s)
    else none
  | _ => none

/-- Whoever is mounted when a recovery is attempted finds the volume again. -/
def SdOp.Recovers (s : SdState) (op : SdOp) : Prop :=
  ∀ io base, op.recovery s = some (io, base) → io.mount = .ok ∨ ∀ t, base.live t = false

/-- The file of target `t` is open on the volume in use, and its size gives the capacity. -/
def SdState.Backed (s : SdState) (t : ℕ) : Prop :=
  ∃ f, (s.targets t).file = some f ∧ f.generation = s.generation ∧
    (s.targets t).capacitySectors = f.size / 512

/-- Mounted targets are backed. -/
structure SdState.Sound (s : SdState) : Prop where
  backed : ∀ t, (s.targets t).mounted = true → s.Backed t
  bounded : ∀ t, (s.targets t).mounted = true → t < storageMaxTargets

lemma SdState.Sound.live {s : SdState} (h : s.Sound) {t : ℕ} : s.live t = (s.targets t).mounted := by
  cases hm : (s.targets t).mounted with
  | false => simp [SdState.live, hm]
  | true => simp [SdState.live, hm, h.bounded t hm]

/-- Only the targets and the volume matter. -/
lemma SdState.Sound.congr {s s' : SdState} (h : s.Sound) (htargets : s'.targets = s.targets)
    (hgen : s'.generation = s.generation) : s'.Sound := by
  refine ⟨fun t hm => ?_, fun t hm => ?_⟩
  · unfold SdState.Backed
    rw [htargets, hgen]
    exact h.backed t (htargets ▸ hm)
  · exact h.bounded t (htargets ▸ hm)

/-- A target may be unmounted. -/
lemma SdState.Sound.setTarget {s : SdState} (h : s.Sound) {t : ℕ} {x : SdTarget}
    (hx : x.mounted = false) : (s.setTarget t x).Sound := by
  refine ⟨fun u hm => ?_, fun u hm => ?_⟩
  · rcases eq_or_ne u t with rfl | hne
    · simp [SdState.setTarget, hx] at hm
    · simp only [SdState.setTarget, SdState.Backed, Function.update_of_ne hne] at hm ⊢
      exact h.backed u hm
  · rcases eq_or_ne u t with rfl | hne
    · simp [SdState.setTarget, hx] at hm
    · simp only [SdState.setTarget, Function.update_of_ne hne] at hm
      exact h.bounded u hm

lemma sdStorageDisableTarget_sound {s : SdState} (h : s.Sound) (t : ℕ) :
    (sdStorageDisableTarget s t).Sound := h.setTarget rfl

lemma sdStorageUnmount_sound {s : SdState} (h : s.Sound) (t : ℕ) : (sdStorageUnmount s t).1.Sound := by
  unfold sdStorageUnmount
  split
  · exact h
  · split
    · exact h
    · exact h.setTarget rfl

/-- A reopened target is backed by its new file. -/
lemma sdStorageTryRemount_sound {io : RemountIo} {s : SdState} (h : s.Sound)
    (hmount : io.mount = .ok ∨ ∀ t, s.live t = false) : (sdStorageTryRemount io s).1.Sound := by
  have hgen : (sdStorageTryRemount io s).1.generation = s.generation + 1 := by
    unfold sdStorageTryRemount
    split <;> rfl
  refine ⟨fun t hm => ?_, fun t hm => h.bounded t (sdStorageTryRemount_mounted hm)⟩
  have hlive : s.live t = true := h.live.trans (sdStorageTryRemount_mounted hm)
  have hok : io.mount = .ok := by
    obtain hok | hnone := hmount
    · exact hok
    · exact absurd (hnone t) (by simp [hlive])
  have htarget := sdStorageTryRemount_target io s t
  rw [if_pos hlive, if_pos hok] at htarget
  unfold SdState.Backed
  rw [htarget] at hm ⊢
  rw [hgen]
  unfold SdTarget.reopen at hm ⊢
  by_cases hopen : (io.reopen t).1 = .ok
  · rw [if_pos hopen]
    exact ⟨_, rfl, rfl, rfl⟩
  · rw [if_neg hopen] at hm
    exact absurd hm (by simp)

lemma sdOpenImage_sound {io : SdIo} {s : SdState} (h : s.Sound)
    (hmount : ¬(io.open1.1 = .ok ∨ io.open1.1.isMissing = true) →
      io.remount.mount = .ok ∨ ∀ t, s.live t = false) : (sdOpenImage io s).1.Sound := by
  by_cases hanswers : io.open1.1 = .ok ∨ io.open1.1.isMissing = true
  · rw [sdOpenImage_answers hanswers]
    exact h
  · rw [sdOpenImage_remounts hanswers]
    exact sdStorageTryRemount_sound h (hmount hanswers)

lemma sdMountBase_sound {s : SdState} (h : s.Sound) (t : ℕ) : (sdMountBase s t).Sound := by
  unfold sdMountBase
  split
  · exact sdStorageUnmount_sound h t
  · exact h

/-- A newly mounted target is backed by the file it was mounted with. -/
lemma SdState.Sound.mountTarget {s : SdState} (h : s.Sound) {t size : ℕ} (ht : t < storageMaxTargets)
    (image path : Path) (readOnly : Bool) :
    (s.setTarget t ⟨true, readOnly, path, some ⟨image, s.generation, size⟩, size / 512⟩).Sound := by
  refine ⟨fun u hm => ?_, fun u hm => ?_⟩
  · unfold SdState.Backed
    rcases eq_or_ne u t with rfl | hne
    · refine ⟨⟨image, s.generation, size⟩, ?_, rfl, ?_⟩ <;> simp [SdState.setTarget]
    · simp only [SdState.setTarget, Function.update_of_ne hne] at hm ⊢
      exact h.backed u hm
  · rcases eq_or_ne u t with rfl | hne
    · exact ht
    · simp only [SdState.setTarget, Function.update_of_ne hne] at hm
      exact h.bounded u hm

lemma sdStorageMount_sound {io : SdIo} {s : SdState} {t : ℕ} {image : Path} {readOnly : Bool}
    (h : s.Sound) (hrec : (SdOp.mount io t image readOnly).Recovers s) :
    (sdStorageMount io s t image readOnly).1.Sound := by
  have hopen (hinit : s.initialized = true) (ht : t < storageMaxTargets) :
      (sdOpenImage io (sdMountBase s t)).1.Sound := by
    refine sdOpenImage_sound (sdMountBase_sound h t) fun hfails => ?_
    exact hrec io.remount (sdMountBase s t) (if_pos ⟨hinit, ht, hfails⟩)
  obtain ⟨heq, _⟩ | ⟨hinit, ht, ⟨_, heq⟩ | ⟨_, heq⟩⟩ := sdStorageMount_cases io s t image readOnly
  · rw [heq]
    exact h
  · rw [heq]
    exact hopen hinit ht
  · rw [heq]
    exact (hopen hinit ht).mountTarget ht image _ readOnly

lemma sdStorageListImages_sound {io : ListIo} {s : SdState} (h : s.Sound)
    (hrec : (SdOp.list io).Recovers s) : (sdStorageListImages io s).1.Sound := by
  unfold sdStorageListImages
  cases hinit : s.initialized with
  | false => exact h
  | true =>
    rw [if_neg (by decide)]
    dsimp only
    by_cases hopen : io.openDir ≠ .ok
    · have hmount := hrec io.remount s (if_pos ⟨hinit, hopen⟩)
      have hsound := sdStorageTryRemount_sound h hmount
      rw [if_pos hopen]
      split
      next s' heq => rwa [heq] at hsound
      next s' heq => rwa [heq] at hsound
    · rw [if_neg hopen]
      exact h

def SdState.count (s : SdState) : SdKind → ℕ → ℕ
  | .read => s.readFailCount
  | .write => s.writeFailCount
  | .sync => s.syncFailCount

def SdState.setCount (s : SdState) (k : SdKind) (t n : ℕ) : SdState :=
  match k with
  | .read => { s with readFailCount := Function.update s.readFailCount t n }
  | .write => { s with writeFailCount := Function.update s.writeFailCount t n }
  | .sync => { s with syncFailCount := Function.update s.syncFailCount t n }

/-- The failure of the three attempts is counted, per target and for the card. -/
def SdState.failed (s : SdState) (k : SdKind) (t : ℕ) (files : Path → ℕ → Sector) : SdState :=
  { s.setCount k t (s.count k t + 1) with
    files := files, consecutiveIoErrors := s.consecutiveIoErrors + 1 }

/-- The ways in which an access ends, which has exhausted its attempts or not; a write may change the
card on each of them. -/
inductive Accessed (io : SdIo) (s : SdState) (k : SdKind) (t : ℕ) : Bool → SdState × Bool → Prop
  | done (files : Path → ℕ → Sector) : Accessed io s k t false
      ({ s.setCount k t 0 with files := files, consecutiveIoErrors := 0 }, true)
  | recovered (files files' : Path → ℕ → Sector) (errors : ℕ) : Accessed io s k t true
      ({ (sdRecover io (s.failed k t files) t).1.setCount k t 0 with
        files := files', consecutiveIoErrors := errors }, true)
  | failed (files files' : Path → ℕ → Sector) : Accessed io s k t true
      (({ (sdRecover io (s.failed k t files) t).1 with files := files' } : SdState).disableAfter t
        ((sdRecover io (s.failed k t files) t).1.count k t), false)

/-- The checks in front of the card. -/
lemma SdOp.access_read {io : SdIo} {s : SdState} {t lba : ℕ} {k : SdKind} {u : ℕ}
    (h : (SdOp.read io t lba).access s = some (k, u)) :
    (s.initialized = true ∧ t < storageMaxTargets ∧ (s.targets t).mounted = true ∧
      lba < (s.targets t).capacitySectors) ∧ SdKind.read = k ∧ t = u := by
  simpa [SdOp.access, Option.ite_none_right_eq_some] using h

lemma SdOp.access_write {io : SdIo} {s : SdState} {t lba : ℕ} {data : Sector} {k : SdKind} {u : ℕ}
    (h : (SdOp.write io t lba data).access s = some (k, u)) :
    (s.initialized = true ∧ t < storageMaxTargets ∧ (s.targets t).mounted = true ∧
      (s.targets t).readOnly = false ∧ lba < (s.targets t).capacitySectors) ∧ SdKind.write = k ∧ t = u := by
  simpa [SdOp.access, Option.ite_none_right_eq_some] using h

lemma SdOp.access_sync {io : SdIo} {s : SdState} {t : ℕ} {k : SdKind} {u : ℕ}
    (h : (SdOp.sync io t).access s = some (k, u)) :
    (s.initialized = true ∧ t < storageMaxTargets ∧ (s.targets t).mounted = true) ∧
      SdKind.sync = k ∧ t = u := by
  simpa [SdOp.access, Option.ite_none_right_eq_some] using h

lemma sdStorageReadSector_accessed {io : SdIo} {s : SdState} {t lba : ℕ} {k : SdKind} {u : ℕ}
    (h : (SdOp.read io t lba).access s = some (k, u)) :
    Accessed io s k u ((SdOp.read io t lba).exhausted s) (sdStep s (.read io t lba)) := by
  obtain ⟨⟨hinit, ht, hm, hlba⟩, rfl, rfl⟩ := SdOp.access_read h
  unfold SdOp.exhausted sdStep sdStorageReadSector
  dsimp only
  rw [if_neg (by simp [hinit, ht]), if_neg (by simp [hm]), if_neg (by omega)]
  cases (List.range 3).findSome? (sdReadAttempt io s (s.targets t).file lba) with
  | some data => exact .done s.files
  | none =>
    dsimp only
    split
    next data => exact .recovered s.files (sdRecover io (s.failed .read t s.files) t).1.files 0
    next => exact .failed s.files (sdRecover io (s.failed .read t s.files) t).1.files

/-- A write changes nothing but the card. -/
lemma sdWriteAttempt_files (io : SdIo) (s : SdState) (file : Option FileHandle) (lba : ℕ)
    (data : Sector) (attempt : ℕ) :
    ∃ files, (sdWriteAttempt io s file lba data attempt).1 = { s with files := files } := by
  unfold sdWriteAttempt
  split
  · exact ⟨s.files, rfl⟩
  · split
    · exact ⟨s.files, rfl⟩
    · split
      · exact ⟨_, rfl⟩
      · exact ⟨_, rfl⟩

lemma sdWriteRetry_files (io : SdIo) (file : Option FileHandle) (lba : ℕ) (data : Sector) (left : ℕ)
    (s : SdState) : ∃ files, (sdWriteRetry io file lba data left s).1 = { s with files := files } := by
  induction left generalizing s with
  | zero => exact ⟨s.files, rfl⟩
  | succ left ih =>
    obtain ⟨files, hfiles⟩ := sdWriteAttempt_files io s file lba data (3 - (left + 1))
    unfold sdWriteRetry
    split
    next s' heq =>
      rw [heq] at hfiles
      exact ⟨files, hfiles⟩
    next s' heq =>
      rw [heq] at hfiles
      obtain rfl : s' = { s with files := files } := hfiles
      exact ih _

lemma sdWriteAgain_files (io : SdIo) (s : SdState) (t lba : ℕ) (data : Sector) (again : Bool) :
    ∃ files, (if again then sdWriteAttempt io s (s.targets t).file lba data 3 else (s, false)).1 =
      { s with files := files } := by
  cases again with
  | true => exact sdWriteAttempt_files io s (s.targets t).file lba data 3
  | false => exact ⟨s.files, rfl⟩

lemma sdStorageWriteSector_accessed {io : SdIo} {s : SdState} {t lba : ℕ} {data : Sector} {k : SdKind}
    {u : ℕ} (h : (SdOp.write io t lba data).access s = some (k, u)) :
    Accessed io s k u ((SdOp.write io t lba data).exhausted s) (sdStep s (.write io t lba data)) := by
  obtain ⟨⟨hinit, ht, hm, hro, hlba⟩, rfl, rfl⟩ := SdOp.access_write h
  obtain ⟨files, hfiles⟩ := sdWriteRetry_files io (s.targets t).file lba data 3 s
  unfold SdOp.exhausted sdStep
  dsimp only
  unfold sdStorageWriteSector
  rw [if_neg (by simp [hinit, ht]), if_neg (by simp [hm]), if_neg (by simp [hro]), if_neg (by omega)]
  generalize sdWriteRetry io (s.targets t).file lba data 3 s = r at hfiles
  obtain ⟨s', ok⟩ := r
  obtain rfl : s' = { s with files := files } := hfiles
  cases ok with
  | true => exact .done files
  | false =>
    have hagain := sdWriteAgain_files io (sdRecover io (s.failed .write t files) t).1 t lba data
      (sdRecover io (s.failed .write t files) t).2
    obtain ⟨files', hfiles'⟩ := hagain
    show Accessed io s .write t true (match (if (sdRecover io (s.failed .write t files) t).2 then
      sdWriteAttempt io (sdRecover io (s.failed .write t files) t).1
        ((sdRecover io (s.failed .write t files) t).1.targets t).file lba data 3
      else ((sdRecover io (s.failed .write t files) t).1, false)) with
      | (s, true) => ({ s with writeFailCount := Function.update s.writeFailCount t 0 }, true)
      | (s, false) => (s.disableAfter t (s.writeFailCount t), false))
    split
    next s₂ heq =>
      rw [heq] at hfiles'
      obtain rfl : s₂ = { (sdRecover io (s.failed .write t files) t).1 with files := files' } := hfiles'
      exact .recovered files files' _
    next s₂ heq =>
      rw [heq] at hfiles'
      obtain rfl : s₂ = { (sdRecover io (s.failed .write t files) t).1 with files := files' } := hfiles'
      exact .failed files files'

lemma sdStorageSync_accessed {io : SdIo} {s : SdState} {t : ℕ} {k : SdKind} {u : ℕ}
    (h : (SdOp.sync io t).access s = some (k, u)) :
    Accessed io s k u ((SdOp.sync io t).exhausted s) (sdStep s (.sync io t)) := by
  obtain ⟨⟨hinit, ht, hm⟩, rfl, rfl⟩ := SdOp.access_sync h
  unfold SdOp.exhausted sdStep
  dsimp only
  unfold sdStorageSync
  rw [if_neg (by simp [hinit, ht]), if_neg (by simp [hm])]
  cases (List.range 3).any fun a => io.sync a == .ok with
  | true => exact .done s.files
  | false =>
    rw [if_neg (by decide)]
    show Accessed io s .sync t true (if (sdRecover io (s.failed .sync t s.files) t).2 && io.sync 3 == .ok
      then ((sdRecover io (s.failed .sync t s.files) t).1.setCount .sync t 0, true)
      else ((sdRecover io (s.failed .sync t s.files) t).1.disableAfter t
        ((sdRecover io (s.failed .sync t s.files) t).1.syncFailCount t), false))
    split
    · exact .recovered s.files (sdRecover io (s.failed .sync t s.files) t).1.files _
    · exact .failed s.files (sdRecover io (s.failed .sync t s.files) t).1.files

@[simp] lemma SdState.setCount_targets (s : SdState) (k : SdKind) (t n : ℕ) :
    (s.setCount k t n).targets = s.targets := by
  cases k <;> rfl

@[simp] lemma SdState.setCount_generation (s : SdState) (k : SdKind) (t n : ℕ) :
    (s.setCount k t n).generation = s.generation := by
  cases k <;> rfl

lemma SdState.failed_live (s : SdState) (k : SdKind) (t : ℕ) (files : Path → ℕ → Sector) (u : ℕ) :
    (s.failed k t files).live u = s.live u := by
  cases k <;> rfl

lemma SdState.disableAfter_sound {s : SdState} (h : s.Sound) (t failures : ℕ) :
    (s.disableAfter t failures).Sound := by
  unfold SdState.disableAfter
  split
  · exact sdStorageDisableTarget_sound h t
  · exact h

lemma sdRecover_sound {io : SdIo} {s : SdState} (h : s.Sound) (t : ℕ)
    (hmount : s.consecutiveIoErrors = sdRemountThreshold →
      io.remount.mount = .ok ∨ ∀ u, s.live u = false) : (sdRecover io s t).1.Sound := by
  unfold sdRecover
  split
  next hfifth =>
    have hsound := sdStorageTryRemount_sound h (hmount hfifth)
    split
    next s' heq => rwa [heq] at hsound
    next s' heq => rwa [heq] at hsound
  · exact h

lemma Accessed.sound {io : SdIo} {s : SdState} {k : SdKind} {t : ℕ} {exhausted : Bool}
    {r : SdState × Bool} (h : Accessed io s k t exhausted r) (hs : s.Sound)
    (hmount : exhausted = true → s.consecutiveIoErrors + 1 = sdRemountThreshold →
      io.remount.mount = .ok ∨ ∀ u, s.live u = false) : r.1.Sound := by
  have hrecover (files : Path → ℕ → Sector) (hex : exhausted = true) :
      (sdRecover io (s.failed k t files) t).1.Sound := by
    have hfailed : (s.failed k t files).Sound :=
      hs.congr (s.setCount_targets k t _) (s.setCount_generation k t _)
    refine sdRecover_sound hfailed t fun hfifth => ?_
    simpa only [SdState.failed_live] using hmount hex hfifth
  cases h with
  | done files => exact hs.congr (s.setCount_targets k t 0) (s.setCount_generation k t 0)
  | recovered files files' errors =>
    exact (hrecover files rfl).congr (SdState.setCount_targets _ k t 0) (SdState.setCount_generation _ k t 0)
  | failed files files' =>
    refine SdState.disableAfter_sound ?_ t _
    exact (hrecover files rfl).congr rfl rfl

/-- An access that does not pass the checks changes nothing. -/
lemma sdStorageReadSector_rejected {io : SdIo} {s : SdState} {t lba : ℕ}
    (h : (SdOp.read io t lba).access s = none) : sdStorageReadSector io s t lba = (s, none) := by
  simp only [SdOp.access, ite_eq_right_iff, reduceCtorEq, imp_false] at h
  unfold sdStorageReadSector
  split
  · rfl
  · split
    · rfl
    · split
      · rfl
      · simp_all

lemma sdStorageWriteSector_rejected {io : SdIo} {s : SdState} {t lba : ℕ} {data : Sector}
    (h : (SdOp.write io t lba data).access s = none) :
    sdStorageWriteSector io s t lba data = (s, false) := by
  simp only [SdOp.access, ite_eq_right_iff, reduceCtorEq, imp_false] at h
  unfold sdStorageWriteSector
  split
  · rfl
  · split
    · rfl
    · split
      · rfl
      · split
        · rfl
        · simp_all

lemma sdStorageSync_rejected {io : SdIo} {s : SdState} {t : ℕ} (h : (SdOp.sync io t).access s = none) :
    sdStorageSync io s t = (s, false) := by
  simp only [SdOp.access, ite_eq_right_iff, reduceCtorEq, imp_false] at h
  unfold sdStorageSync
  split
  · rfl
  · split
    · rfl
    · simp_all

/-- What an access does, by kind. -/
lemma sdStep_access {s : SdState} {op : SdOp} {k : SdKind} {t : ℕ} (h : op.access s = some (k, t)) :
    ∃ io, Accessed io s k t (op.exhausted s) (sdStep s op) ∧
      (op.exhausted s = true → s.consecutiveIoErrors + 1 = sdRemountThreshold →
        op.recovery s = some (io.remount, s)) := by
  have hrec (io : SdIo) (hop : op.recovery s =
      if (op.access s).isSome ∧ op.exhausted s ∧ s.consecutiveIoErrors + 1 = sdRemountThreshold then
        some (io.remount, s) else none) (hex : op.exhausted s = true)
      (hfifth : s.consecutiveIoErrors + 1 = sdRemountThreshold) :
      op.recovery s = some (io.remount, s) := by
    rw [hop, h]
    exact if_pos ⟨rfl, hex, hfifth⟩
  cases op with
  | read io t lba => exact ⟨io, sdStorageReadSector_accessed h, hrec io rfl⟩
  | write io t lba data => exact ⟨io, sdStorageWriteSector_accessed h, hrec io rfl⟩
  | sync io t => exact ⟨io, sdStorageSync_accessed h, hrec io rfl⟩
  | _ => exact absurd h (by simp [SdOp.access])

lemma sdStorageInit_sound {io : SdIo} {s : SdState} (h : s.Sound) : (sdStorageInit io s).1.Sound := by
  unfold sdStorageInit
  split
  · exact h
  · split
    · exact h
    · split
      · exact h
      · exact ⟨fun t hm => absurd hm (by simp [SdTarget.initial]),
          fun t hm => absurd hm (by simp [SdTarget.initial])⟩

lemma sdStep_sound {s : SdState} {op : SdOp} (h : s.Sound) (hrec : op.Recovers s) : (sdStep s op).1.Sound := by
  have haccess (hop : ∀ k t, op.access s = some (k, t) → (sdStep s op).1.Sound)
      (hnone : op.access s = none → (sdStep s op).1 = s) : (sdStep s op).1.Sound := by
    cases hcase : op.access s with
    | none =>
      rw [hnone hcase]
      exact h
    | some a => exact hop a.1 a.2 hcase
  have hsome (k : SdKind) (t : ℕ) (hop : op.access s = some (k, t)) : (sdStep s op).1.Sound := by
    obtain ⟨io, hshape, hremount⟩ := sdStep_access hop
    exact hshape.sound h fun hex hfifth => hrec _ _ (hremount hex hfifth)
  cases op with
  | init io => exact sdStorageInit_sound h
  | mount io t image readOnly => exact sdStorageMount_sound h hrec
  | unmount t => exact sdStorageUnmount_sound h t
  | read io t lba =>
    exact haccess hsome fun hnone => congrArg Prod.fst (sdStorageReadSector_rejected hnone)
  | write io t lba data =>
    exact haccess hsome fun hnone => congrArg Prod.fst (sdStorageWriteSector_rejected hnone)
  | sync io t =>
    exact haccess hsome fun hnone => congrArg Prod.fst (sdStorageSync_rejected hnone)
  | list io => exact sdStorageListImages_sound h hrec

lemma SdState.initial_sound (files : Path → ℕ → Sector) : (SdState.initial files).Sound :=
  ⟨fun _ hm => absurd hm (by simp [SdState.initial, SdTarget.initial]),
    fun _ hm => absurd hm (by simp [SdState.initial, SdTarget.initial])⟩

/-- While every recovery brings the volume back, a mounted target has its file open on it. -/
theorem sdRun_backed {files : Path → ℕ → Sector} {ops : List SdOp} {s : SdState}
    (h : Guarded sdRun (fun s op => op.Recovers s) (SdState.initial files) ops s) (t : ℕ)
    (hm : (s.targets t).mounted = true) : s.Backed t := by
  have hsound : s.Sound := by
    refine h.invariant (fun s op s' hs hg hstep => ?_) (SdState.initial_sound files)
    cases hstep
    exact sdStep_sound hs hg
  exact hsound.backed t hm

/-- FatFS when the card has stopped answering, and what a recovery then gets from it. -/
def deadSd (mount : FResult) : SdIo :=
  { readySd with seek := fun _ => .diskErr, sync := fun _ => .diskErr, remount := ⟨mount, fun _ => (.ok, 1024)⟩ }

/-- An image is mounted, and five reads in a row fail. -/
def failingReads (mount : FResult) : List SdOp :=
  [.init readySd, .mount readySd 0 [97] false, .read (deadSd mount) 0 0, .read (deadSd mount) 0 0,
    .read (deadSd mount) 0 0, .read (deadSd mount) 0 0, .read (deadSd mount) 0 0]

def sdAfter (ops : List SdOp) : SdState :=
  ops.foldl (fun s op => (sdStep s op).1) (SdState.initial fun _ _ _ => 0)

theorem sdRun_backed_recovered : (sdAfter (failingReads .ok)).Backed 0 := by
  have hrun : Guarded sdRun (fun s op => op.Recovers s) (SdState.initial fun _ _ _ => 0)
      (failingReads .ok) (sdAfter (failingReads .ok)) := by
    refine .of_total (fun _ _ => rfl) fun n hn io base hrec => ?_
    have hn : n < 7 := hn
    left
    interval_cases n <;> cases hrec
    rfl
  exact sdRun_backed hrun 0 rfl

/-- The recovery fails, and the target stays mounted without a file. -/
theorem sdRun_unbacked :
    ∃ s, Run sdRun (SdState.initial fun _ _ _ => 0) (failingReads .diskErr) s ∧
      (s.targets 0).mounted = true ∧ (s.targets 0).file = none ∧ ¬ s.Backed 0 := by
  have hfile : ((sdAfter (failingReads .diskErr)).targets 0).file = none := rfl
  refine ⟨sdAfter (failingReads .diskErr), .of_total (fun _ _ => rfl) fun _ _ => trivial, rfl, hfile, ?_⟩
  rintro ⟨f, hf, _⟩
  rw [hfile] at hf
  exact absurd hf (by simp)

end PicoV9k.Storage
