import PicoV9k.FujiStorage
import PicoV9k.TransitionRun

/-!
# Who holds an image

Three tables say which backend serves a target: the routing table and the mounted
flags of the two backends. They agree along every run of mount and unmount calls
in which no target is mounted through one backend while the other still holds it.
-/
namespace PicoV9k.Storage
open PicoV9k.Bus PicoV9k.Runs

/-- Backend `b` has its own mounted flag set for target `t`. -/
def Media.flagged (m : Media) : Backend → ℕ → Bool
  | .none, _ => false
  | .fujinet, t => (m.fuji.targets t).mounted
  | .sdcard, t => (m.sd.targets t).mounted

/-- An open SD handle belongs to a mounted target. -/
def SdState.HandlesMounted (s : SdState) : Prop :=
  ∀ t, (s.targets t).file ≠ none → (s.targets t).mounted = true

/-- A mounted flag is set only where the routing table points. -/
structure Owned (st : Routing Media) : Prop where
  flags : ∀ b t, st.media.flagged b t = true → st.targetBackend t = b
  handles : st.media.sd.HandlesMounted
  ready : ∀ t, (st.media.sd.targets t).mounted = true → st.media.sd.initialized = true

/-- One target across the remount recovery. -/
lemma sdStorageTryRemount_target (io : RemountIo) (s : SdState) (t : ℕ) :
    (sdStorageTryRemount io s).1.targets t =
      if s.live t then
        if io.mount = .ok then
          SdTarget.reopen { s.targets t with file := none } (s.generation + 1) (io.reopen t)
        else { s.targets t with file := none }
      else s.targets t := by
  unfold sdStorageTryRemount SdState.closeAll
  by_cases hm : io.mount = .ok <;> cases hl : s.live t <;> simp [hm, hl]

lemma SdState.mounted_of_live {s : SdState} {t : ℕ} (h : s.live t = true) :
    (s.targets t).mounted = true := by
  simp only [SdState.live, Bool.and_eq_true] at h
  exact h.2

/-- The recovery mounts no target. -/
lemma sdStorageTryRemount_mounted {io : RemountIo} {s : SdState} {t : ℕ}
    (h : ((sdStorageTryRemount io s).1.targets t).mounted = true) : (s.targets t).mounted = true := by
  cases hl : s.live t with
  | true => exact SdState.mounted_of_live hl
  | false => simpa [sdStorageTryRemount_target, hl] using h

lemma sdOpenImage_answers {io : SdIo} {s : SdState}
    (h : io.open1.1 = .ok ∨ io.open1.1.isMissing = true) : sdOpenImage io s = (s, io.open1) := by
  simp [sdOpenImage, h]

lemma sdOpenImage_remounts {io : SdIo} {s : SdState}
    (h : ¬(io.open1.1 = .ok ∨ io.open1.1.isMissing = true)) :
    (sdOpenImage io s).1 = (sdStorageTryRemount io.remount s).1 := by
  unfold sdOpenImage
  rw [if_neg h]
  split <;> simp_all

lemma sdOpenImage_cases (io : SdIo) (s : SdState) :
    (sdOpenImage io s).1 = s ∨ (sdOpenImage io s).1 = (sdStorageTryRemount io.remount s).1 := by
  by_cases h : io.open1.1 = .ok ∨ io.open1.1.isMissing = true
  · exact .inl (by rw [sdOpenImage_answers h])
  · exact .inr (sdOpenImage_remounts h)

lemma sdStorageUnmount_target (s : SdState) (t t' : ℕ) :
    (sdStorageUnmount s t).1.targets t' = s.targets t' ∨
      t' = t ∧ (sdStorageUnmount s t).1.targets t' =
        { s.targets t with file := none, mounted := false, capacitySectors := 0 } := by
  unfold sdStorageUnmount
  split
  · exact .inl rfl
  · split
    · exact .inl rfl
    · rcases eq_or_ne t' t with rfl | hne
      · exact .inr ⟨rfl, by simp [SdState.setTarget]⟩
      · exact .inl (by simp [SdState.setTarget, hne])

/-- The state in which `sd_storage_mount` opens the new image. -/
def sdMountBase (s : SdState) (t : ℕ) : SdState :=
  if (s.targets t).mounted then (sdStorageUnmount s t).1 else s

/-- The four ways `sd_storage_mount` ends. -/
lemma sdStorageMount_cases (io : SdIo) (s : SdState) (t : ℕ) (image : Path) (readOnly : Bool) :
    (sdStorageMount io s t image readOnly = (s, false) ∧
        (s.initialized = false ∨ storageMaxTargets ≤ t)) ∨
      (s.initialized = true ∧ t < storageMaxTargets ∧
        (((sdOpenImage io (sdMountBase s t)).2.1 ≠ .ok ∧
            sdStorageMount io s t image readOnly = ((sdOpenImage io (sdMountBase s t)).1, false)) ∨
          ((sdOpenImage io (sdMountBase s t)).2.1 = .ok ∧
            sdStorageMount io s t image readOnly =
              ((sdOpenImage io (sdMountBase s t)).1.setTarget t {
                mounted := true
                readOnly := readOnly
                imagePath := truncatePath image
                file := some ⟨image, (sdOpenImage io (sdMountBase s t)).1.generation,
                  (sdOpenImage io (sdMountBase s t)).2.2⟩
                capacitySectors := (sdOpenImage io (sdMountBase s t)).2.2 / 512 }, true)))) := by
  unfold sdStorageMount sdMountBase
  cases hi : s.initialized with
  | false => exact .inl ⟨rfl, .inl rfl⟩
  | true =>
    rcases Nat.lt_or_ge t storageMaxTargets with hlt | hge
    · refine .inr ⟨rfl, hlt, ?_⟩
      simp only [Bool.not_true, Bool.false_eq_true, ↓reduceIte, Nat.not_le.mpr hlt]
      generalize (if (s.targets t).mounted = true then (sdStorageUnmount s t).1 else s) = base
      split
      next h => exact .inl ⟨h, rfl⟩
      next h => exact .inr ⟨not_not.mp h, rfl⟩
    · exact .inl ⟨by simp [hge], .inr hge⟩

@[simp] lemma fujiUnmountSlot_targets (io : FujiIo) (s : FujiState) (slot : ℕ) :
    (fujiUnmountSlot io s slot).1.targets = s.targets := by
  unfold fujiUnmountSlot
  dsimp only
  split <;> rfl

lemma fujiSelectImage_targets (io : FujiIo) (s : FujiState) (slot : ℕ) (name : Path)
    (readOnly : Bool) : (fujiSelectImage io s slot name readOnly).1.targets = s.targets := by
  have h := fujiUnmountSlot_targets io s slot
  unfold fujiSelectImage
  split
  · rfl
  · split
    next s' heq => rwa [heq] at h
    next s' heq =>
      rw [heq] at h
      dsimp only
      split <;> exact h

lemma fujiMountAll_targets (io : FujiIo) (s : FujiState) :
    (fujiMountAll io s).1.targets = s.targets := by
  unfold fujiMountAll
  dsimp only
  split <;> rfl

/-- A mount sets no flag but the named target's, and that one only when it succeeds. -/
lemma fujiStorageMount_targets (io : FujiIo) (s : FujiState) (t : ℕ) (image : Path)
    (readOnly : Bool) :
    (fujiStorageMount io s t image readOnly).1.targets = s.targets ∨
      (fujiStorageMount io s t image readOnly).2 = true ∧
        ∀ t' ≠ t, (fujiStorageMount io s t image readOnly).1.targets t' = s.targets t' := by
  have hselect := fujiSelectImage_targets io s t image readOnly
  have hall := fujiMountAll_targets io
  unfold fujiStorageMount
  split
  · exact .inl rfl
  · dsimp only
    split
    next s₁ heq =>
      left
      dsimp only
      split at heq
      · cases heq
      · split at heq
        · cases heq
          rfl
        · split at heq
          · cases heq
          next s₂ hs₂ =>
            cases heq
            rwa [hs₂] at hselect
    next s₁ capacity heq =>
      have hs₁ : s₁.targets = s.targets := by
        split at heq
        · cases heq
          rfl
        · split at heq
          · cases heq
          · split at heq
            next s₂ hs₂ =>
              cases heq
              rwa [hs₂] at hselect
            · cases heq
      have hs₂ := (hall s₁).trans hs₁
      split
      next s₃ hs₃ =>
        rw [hs₃] at hs₂
        exact .inl hs₂
      next s₃ hs₃ =>
        rw [hs₃] at hs₂
        refine .inr ⟨rfl, fun t' hne => ?_⟩
        simp only [FujiState.setTarget, Function.update_of_ne hne]
        exact congrFun hs₂ t'

inductive Call
  | init (backend : Backend)
  | mountOn (backend : Backend) (target : ℕ) (image : Path) (readOnly : Bool)
  | mount (target : ℕ) (image : Path) (readOnly : Bool)
  | unmount (target : ℕ)

/-- The outside world during one call: a lazy initialisation, then the operation. -/
structure CallIo where
  init : StorageIo
  op : StorageIo

def callStep (st : Routing Media) : Call × CallIo → Routing Media × Bool
  | (.init b, io) => storageInit cardRegistry io.init st b
  | (.mountOn b t image readOnly, io) => storageMountOn cardRegistry io.init io.op st b t image readOnly
  | (.mount t image readOnly, io) => storageMount cardRegistry io.init io.op st t image readOnly
  | (.unmount t, io) => storageUnmount cardRegistry io.op st t

/-- The statics of the card at power-up. -/
def powerUp (files : Path → ℕ → Sector) (slots : ℕ → EspSlot) (images : Path → ℕ → Sector) :
    Routing Media := .initial ⟨.initial files, .initial slots images⟩

lemma sdMountBase_target_ne {s : SdState} {t u : ℕ} (h : u ≠ t) :
    (sdMountBase s t).targets u = s.targets u := by
  unfold sdMountBase
  split
  · rcases sdStorageUnmount_target s t u with heq | ⟨rfl, _⟩
    · exact heq
    · exact absurd rfl h
  · rfl

lemma sdStorageTryRemount_initialized (io : RemountIo) (s : SdState) :
    (sdStorageTryRemount io s).1.initialized = s.initialized := by
  unfold sdStorageTryRemount
  dsimp only
  split <;> rfl

lemma sdStorageUnmount_initialized (s : SdState) (t : ℕ) :
    (sdStorageUnmount s t).1.initialized = s.initialized := by
  unfold sdStorageUnmount
  split
  · rfl
  · split <;> rfl

lemma sdStorageMount_initialized (io : SdIo) (s : SdState) (t : ℕ) (image : Path)
    (readOnly : Bool) : (sdStorageMount io s t image readOnly).1.initialized = s.initialized := by
  have hbase : (sdMountBase s t).initialized = s.initialized := by
    unfold sdMountBase
    split
    · exact sdStorageUnmount_initialized s t
    · rfl
  have hopen : (sdOpenImage io (sdMountBase s t)).1.initialized = s.initialized := by
    rcases sdOpenImage_cases io (sdMountBase s t) with heq | heq
    · rw [heq, hbase]
    · rw [heq, sdStorageTryRemount_initialized, hbase]
  rcases sdStorageMount_cases io s t image readOnly with
    ⟨heq, _⟩ | ⟨_, _, ⟨_, heq⟩ | ⟨_, heq⟩⟩
  · rw [heq]
  · rw [heq]
    exact hopen
  · rw [heq]
    exact hopen

/-- Nothing is mounted at power-up. -/
lemma Owned.powerUp (files : Path → ℕ → Sector) (slots : ℕ → EspSlot)
    (images : Path → ℕ → Sector) : Owned (powerUp files slots images) where
  flags := by
    intro b t h
    cases b <;> cases h
  handles := fun _ h => absurd rfl h
  ready := by
    intro t h
    cases h

/-- Losing flags never breaks the agreement. -/
lemma Owned.media {st : Routing Media} (h : Owned st) {m : Media}
    (hflags : ∀ b t, m.flagged b t = true → st.media.flagged b t = true)
    (hhandles : m.sd.HandlesMounted)
    (hready : ∀ t, (m.sd.targets t).mounted = true → m.sd.initialized = true) :
    Owned { st with media := m } where
  flags := fun b t hb => h.flags b t (hflags b t hb)
  handles := hhandles
  ready := hready

lemma opsForTarget_lt {st : Routing Media} {t : ℕ} {ops : StorageOps StorageIo Media}
    (h : opsForTarget cardRegistry st t = some ops) : t < storageMaxTargets := by
  unfold opsForTarget at h
  split at h
  · cases h
  · omega

lemma TxResult.applied_of_ok {r : TxResult} (h : r.ok = true) : r.applied = true := by
  cases r with
  | acked => rfl
  | lost applied => cases h

/-- An outside world in which everything succeeds on an empty volume. -/
def readySd : SdIo where
  alloc := true
  initMount := .ok
  openDir := .ok
  dirEntries := []
  open1 := (.ok, 1024)
  remount := ⟨.ok, fun _ => (.ok, 1024)⟩
  open2 := (.ok, 1024)
  seek := fun _ => .ok
  read := fun _ => (.ok, 512)
  write := fun _ => (.ok, 512, fun _ => 0)
  sync := fun _ => .ok

def readyFuji : FujiIo := ⟨true, some 1024, .acked, .acked, .acked, .acked, .acked⟩

def readyIo : CallIo := ⟨⟨readySd, readyFuji⟩, ⟨readySd, readyFuji⟩⟩

def emptyCard : Routing Media := powerUp (fun _ _ _ => 0) (fun _ => ⟨none, none⟩) (fun _ _ _ => 0)

def callsFrom (st : Routing Media) (calls : List (Call × CallIo)) : Routing Media :=
  calls.foldl (fun st call => (callStep st call).1) st

end PicoV9k.Storage
