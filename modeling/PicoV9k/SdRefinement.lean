import PicoV9k.ImageShelf
import PicoV9k.SdRuns

/-!
# The SD card is an image shelf

Retries, recoveries that close and reopen every file, targets that are given up: none
of it shows in what the backend delivers.
-/
namespace PicoV9k.Storage
open PicoV9k.Bus PicoV9k.Runs

def SdTarget.image (x : SdTarget) : Option Path := if x.mounted then some x.imagePath else none

def SdState.shelf (s : SdState) : Shelf := ⟨fun t => (s.targets t).image, s.files⟩

/-- The open file of a mounted target is its image. -/
def SdTarget.Named (x : SdTarget) : Prop := x.mounted = true → ∀ f ∈ x.file, f.path = x.imagePath

def SdState.Named (s : SdState) : Prop := ∀ t, (s.targets t).Named

variable {s s' s'' : SdState}

/-- Some targets lose their image, and otherwise nothing happens. -/
structure Calm (s s' : SdState) : Prop where
  files : s'.files = s.files
  image : ∀ t, (s'.targets t).image = (s.targets t).image ∨ (s'.targets t).image = none
  named : s.Named → s'.Named

lemma Calm.refl (s : SdState) : Calm s s := ⟨rfl, fun _ => .inl rfl, id⟩

lemma Calm.trans (h : Calm s s') (g : Calm s' s'') : Calm s s'' := by
  refine ⟨g.files.trans h.files, fun t => ?_, fun hn => g.named (h.named hn)⟩
  rcases g.image t with hg | hg
  · rcases h.image t with hh | hh
    · exact .inl (hg.trans hh)
    · exact .inr (hg.trans hh)
  · exact .inr hg

/-- Only the targets and the card matter. -/
lemma Calm.of_targets (hfiles : s'.files = s.files) (htargets : s'.targets = s.targets) : Calm s s' :=
  ⟨hfiles, fun t => .inl (by rw [htargets]), fun h t => htargets ▸ h t⟩

lemma Calm.shelf (h : Calm s s') : ∃ gone, s'.shelf = s.shelf.dropped gone := by
  refine ⟨fun t => (s'.targets t).image.isNone, ?_⟩
  unfold SdState.shelf Shelf.dropped
  rw [h.files]
  congr 1
  funext t
  rcases h.image t with hsame | hnone
  · cases himage : (s.targets t).image <;> simp [hsame, himage]
  · simp [hnone]

lemma reopen_image (x : SdTarget) (generation : ℕ) (answer : FResult × ℕ) :
    (x.reopen generation answer).image = x.image ∨ (x.reopen generation answer).image = none := by
  unfold SdTarget.reopen
  split
  · exact .inl rfl
  · exact .inr rfl

lemma reopen_named (x : SdTarget) (generation : ℕ) (answer : FResult × ℕ) :
    (x.reopen generation answer).Named := by
  unfold SdTarget.reopen
  split
  · rintro - f ⟨⟩
    rfl
  · rintro ⟨⟩

/-- A recovery reopens the images it closed, or gives them up. -/
lemma tryRemount_calm (io : RemountIo) (s : SdState) : Calm s (sdStorageTryRemount io s).1 := by
  refine ⟨?_, fun t => ?_, fun hn t => ?_⟩
  · unfold sdStorageTryRemount
    split <;> rfl
  · rw [sdStorageTryRemount_target]
    split
    · split
      · exact reopen_image _ _ _
      · exact .inl rfl
    · exact .inl rfl
  · rw [sdStorageTryRemount_target]
    split
    · split
      · exact reopen_named _ _ _
      · rintro - f ⟨⟩
    · exact hn t

lemma setTarget_calm {t : ℕ} {x : SdTarget} (hx : x.mounted = false) : Calm s (s.setTarget t x) := by
  have himage : x.image = none := by simp [SdTarget.image, hx]
  refine ⟨rfl, fun u => ?_, fun hn u => ?_⟩ <;> rcases eq_or_ne u t with rfl | hne
  · exact .inr (by simpa [SdState.setTarget] using himage)
  · exact .inl (by simp [SdState.setTarget, hne])
  · intro hm
    simp [SdState.setTarget, hx] at hm
  · simpa [SdState.setTarget, hne] using hn u

lemma disableAfter_calm (s : SdState) (t failures : ℕ) : Calm s (s.disableAfter t failures) := by
  unfold SdState.disableAfter
  split
  · exact setTarget_calm rfl
  · exact .refl s

lemma sdRecover_calm (io : SdIo) (s : SdState) (t : ℕ) : Calm s (sdRecover io s t).1 := by
  have hremount := tryRemount_calm io.remount s
  unfold sdRecover
  split
  · split
    next s' heq => rwa [heq] at hremount
    next s' heq => rwa [heq] at hremount
  · exact .refl s

lemma sdRecover_again {io : SdIo} {t : ℕ} (h : (sdRecover io s t).2 = true) :
    ((sdRecover io s t).1.targets t).mounted = true := by
  unfold sdRecover at h ⊢
  split at h
  next hfifth =>
    rw [if_pos hfifth]
    split at h
    next s' heq => exact h
    · cases h
  · cases h

lemma sdStorageUnmount_calm (s : SdState) (t : ℕ) : Calm s (sdStorageUnmount s t).1 := by
  unfold sdStorageUnmount
  split
  · exact .refl s
  · split
    · exact .refl s
    · exact setTarget_calm rfl

lemma sdMountBase_calm (s : SdState) (t : ℕ) : Calm s (sdMountBase s t) := by
  unfold sdMountBase
  split
  · exact sdStorageUnmount_calm s t
  · exact .refl s

lemma sdOpenImage_calm (io : SdIo) (s : SdState) : Calm s (sdOpenImage io s).1 := by
  rcases sdOpenImage_cases io s with heq | heq <;> rw [heq]
  · exact .refl s
  · exact tryRemount_calm _ s

lemma sdStorageListImages_calm (io : ListIo) (s : SdState) : Calm s (sdStorageListImages io s).1 := by
  have hremount := tryRemount_calm io.remount s
  unfold sdStorageListImages
  split
  · exact .refl s
  · dsimp only
    split
    · split
      next s' heq => rwa [heq] at hremount
      next s' heq => rwa [heq] at hremount
    · exact .refl s

lemma SdState.shelf_image {t : ℕ} (hm : (s.targets t).mounted = true) :
    s.shelf.image t = some (s.targets t).imagePath := if_pos hm

lemma Calm.mounted (h : Calm s s') {t : ℕ} (hm : (s.targets t).mounted = true)
    (hm' : (s'.targets t).mounted = true) : (s'.targets t).imagePath = (s.targets t).imagePath := by
  have hbefore : (s.targets t).image = some (s.targets t).imagePath := if_pos hm
  have hafter : (s'.targets t).image = some (s'.targets t).imagePath := if_pos hm'
  rcases h.image t with hsame | hnone
  · rw [hbefore, hafter] at hsame
    exact Option.some.inj hsame
  · rw [hafter] at hnone
    cases hnone

/-- `f_read` inside a file delivers whole sectors. -/
def SdIo.ReadsWhole (io : SdIo) : Prop := ∀ attempt, (io.read attempt).1 = .ok → 512 ≤ (io.read attempt).2

lemma sdReadAttempt_data {io : SdIo} (hwhole : io.ReadsWhole) (hn : s.Named) {t lba attempt : ℕ}
    (hm : (s.targets t).mounted = true) {data : Sector}
    (h : sdReadAttempt io s (s.targets t).file lba attempt = some data) :
    data = s.files (s.targets t).imagePath lba := by
  unfold sdReadAttempt at h
  split at h
  · cases h
  next f hf =>
    split at h
    next hok =>
      have hfull := hwhole attempt hok.2
      rw [← Option.some.inj h, ← hn t hm f hf]
      funext i
      exact if_pos (i.isLt.trans_le hfull)
    · cases h

/-- What a read shows. -/
def readShown (t lba : ℕ) (data : Option Sector) : Answer :=
  match data with
  | some data => .read t lba data
  | none => .nothing

/-- The shelf answers too, and the open files stay the images. -/
def Shelved (s s' : SdState) (shown : Answer) : Prop := Shelf.Step s.shelf shown s'.shelf ∧ s'.Named

lemma Calm.shelved (h : Calm s s') (hn : s.Named) : Shelved s s' .nothing := by
  obtain ⟨gone, hshelf⟩ := h.shelf
  refine ⟨?_, h.named hn⟩
  rw [hshelf]
  exact .nothing s.shelf gone

lemma Calm.delivers (h : Calm s s') (hn : s.Named) {t : ℕ} (hm : (s.targets t).mounted = true) (lba : ℕ) :
    Shelved s s' (.read t lba (s.files (s.targets t).imagePath lba)) := by
  obtain ⟨gone, hshelf⟩ := h.shelf
  refine ⟨?_, h.named hn⟩
  rw [hshelf]
  exact .read (SdState.shelf_image hm) gone lba

/-- A read changes no file, and a sector it delivers is the image's. -/
lemma sdStorageReadSector_reads (io : SdIo) (s : SdState) (t lba : ℕ) :
    Calm s (sdStorageReadSector io s t lba).1 ∧
      ∀ data, (sdStorageReadSector io s t lba).2 = some data → s.Named → io.ReadsWhole →
        (s.targets t).mounted = true ∧ data = s.files (s.targets t).imagePath lba := by
  unfold sdStorageReadSector
  split
  · exact ⟨.refl s, nofun⟩
  split
  · exact ⟨.refl s, nofun⟩
  next hmounted =>
  have hm : (s.targets t).mounted = true := by simpa using hmounted
  split
  · exact ⟨.refl s, nofun⟩
  split
  next data hdata =>
    refine ⟨.of_targets rfl rfl, ?_⟩
    rintro _ ⟨⟩ hn hwhole
    obtain ⟨attempt, -, hattempt⟩ := List.exists_of_findSome?_eq_some hdata
    exact ⟨hm, sdReadAttempt_data hwhole hn hm hattempt⟩
  next hnone =>
    dsimp only
    set failed : SdState := { s with
      readFailCount := Function.update s.readFailCount t (s.readFailCount t + 1)
      consecutiveIoErrors := s.consecutiveIoErrors + 1 }
    have hcalm : Calm s (sdRecover io failed t).1 :=
      (Calm.of_targets rfl rfl : Calm s failed).trans (sdRecover_calm io failed t)
    split
    next data hdata =>
      refine ⟨hcalm.trans (.of_targets rfl rfl), ?_⟩
      rintro _ ⟨⟩ hn hwhole
      obtain ⟨⟨hagain, -⟩, hattempt⟩ := Option.ite_none_right_eq_some.mp hdata
      have hm' := sdRecover_again hagain
      rw [sdReadAttempt_data hwhole (hcalm.named hn) hm' hattempt, hcalm.files, hcalm.mounted hm hm']
      exact ⟨hm, rfl⟩
    · exact ⟨hcalm.trans (disableAfter_calm _ _ _), nofun⟩

lemma sdStorageReadSector_shelved {io : SdIo} (hwhole : io.ReadsWhole) (hn : s.Named) (t lba : ℕ) :
    Shelved s (sdStorageReadSector io s t lba).1 (readShown t lba (sdStorageReadSector io s t lba).2) := by
  obtain ⟨hcalm, hdata⟩ := sdStorageReadSector_reads io s t lba
  cases hread : (sdStorageReadSector io s t lba).2 with
  | none => exact hcalm.shelved hn
  | some data =>
    obtain ⟨hm, rfl⟩ := hdata data hread hn hwhole
    exact hcalm.delivers hn hm lba

/-- What a write shows. -/
def writeShown (t lba : ℕ) (data : Sector) (ok : Bool) : Answer :=
  if ok then .written t lba data else .torn t lba

/-- A sector of `p` is stored, or after a failure anything there; nothing else changes, but images
may be lost. -/
def Stores (p : Path) (lba : ℕ) (data : Sector) (s : SdState) (r : SdState × Bool) : Prop :=
  ∃ gone left, (r.2 = true → left = data) ∧ r.1.shelf = (s.shelf.stored p lba left).dropped gone

section
variable {p : Path} {t lba : ℕ} {data : Sector}

lemma Stores.refused (p : Path) (lba : ℕ) (data : Sector) (s : SdState) :
    Stores p lba data s (s, false) :=
  ⟨fun _ => false, s.shelf.disks p lba, nofun, by simp⟩

lemma Stores.trans {ok : Bool} {r : SdState × Bool} (h : Stores p lba data s (s', ok))
    (g : Stores p lba data s' r) : Stores p lba data s r := by
  obtain ⟨gone, torn, -, hshelf⟩ := h
  obtain ⟨gone', left, hok, hshelf'⟩ := g
  refine ⟨fun t => gone' t || gone t, left, hok, ?_⟩
  rw [hshelf', hshelf, Shelf.stored_dropped, Shelf.stored_stored, Shelf.dropped_dropped]

lemma Stores.calm {ok : Bool} (h : Stores p lba data s (s', ok)) (hcalm : Calm s' s'') :
    Stores p lba data s (s'', ok) := by
  obtain ⟨gone, left, hok, hshelf⟩ := h
  obtain ⟨gone', hgone⟩ := hcalm.shelf
  refine ⟨fun t => gone' t || gone t, left, hok, ?_⟩
  rw [hgone, hshelf, Shelf.dropped_dropped]

/-- The write of a mounted target answers as the shelf does. -/
lemma Stores.shelved {ok : Bool} (h : Stores (s.targets t).imagePath lba data s (s', ok))
    (hm : (s.targets t).mounted = true) (hnamed : s'.Named) :
    Shelved s s' (writeShown t lba data ok) := by
  obtain ⟨gone, left, hok, hshelf⟩ := h
  refine ⟨?_, hnamed⟩
  dsimp only at hok hshelf
  rw [hshelf]
  cases ok with
  | true =>
    rw [hok rfl]
    exact .written (SdState.shelf_image hm) gone lba data
  | false => exact .torn (SdState.shelf_image hm) gone lba left

lemma sdWriteAttempt_stores (io : SdIo) (hn : s.Named) (hm : (s.targets t).mounted = true) (lba : ℕ)
    (data : Sector) (attempt : ℕ) : Stores (s.targets t).imagePath lba data s
      (sdWriteAttempt io s (s.targets t).file lba data attempt) := by
  unfold sdWriteAttempt
  split
  · exact .refused _ lba data s
  next f hf =>
    rw [← hn t hm f hf]
    split
    · exact .refused _ lba data s
    · split
      · exact ⟨fun _ => false, data, fun _ => rfl, rfl⟩
      · exact ⟨fun _ => false, _, nofun, rfl⟩

lemma sdWriteRetry_stores (io : SdIo) (hn : s.Named) (hm : (s.targets t).mounted = true) (lba : ℕ)
    (data : Sector) (left : ℕ) : Stores (s.targets t).imagePath lba data s
      (sdWriteRetry io (s.targets t).file lba data left s) := by
  induction left generalizing s with
  | zero => exact .refused _ lba data s
  | succ left ih =>
    have hattempt := sdWriteAttempt_stores io hn hm lba data (3 - (left + 1))
    obtain ⟨files, hfiles⟩ := sdWriteAttempt_files io s (s.targets t).file lba data (3 - (left + 1))
    unfold sdWriteRetry
    split
    next s' heq => rwa [heq] at hattempt
    next s' heq =>
      rw [heq] at hattempt hfiles
      obtain rfl : s' = { s with files := files } := hfiles
      exact hattempt.trans (ih (s := { s with files := files }) hn hm)

end

lemma sdStorageWriteSector_shelved (io : SdIo) (hn : s.Named) (t lba : ℕ) (data : Sector) :
    Shelved s (sdStorageWriteSector io s t lba data).1
      (writeShown t lba data (sdStorageWriteSector io s t lba data).2) := by
  have hrefused : Shelved s s (writeShown t lba data false) := ⟨.refused s.shelf t lba, hn⟩
  unfold sdStorageWriteSector
  split
  · exact hrefused
  split
  · exact hrefused
  next hmounted =>
  have hm : (s.targets t).mounted = true := by simpa using hmounted
  split
  · exact hrefused
  split
  · exact hrefused
  have hretry := sdWriteRetry_stores io hn hm lba data 3
  obtain ⟨files, hfiles⟩ := sdWriteRetry_files io (s.targets t).file lba data 3 s
  split
  next s' heq =>
    rw [heq] at hretry hfiles
    obtain rfl : s' = { s with files := files } := hfiles
    exact (hretry.calm (.of_targets rfl rfl)).shelved hm hn
  next s' heq =>
    rw [heq] at hretry hfiles
    obtain rfl : s' = { s with files := files } := hfiles
    dsimp only
    set failed : SdState := { s with
      files := files
      writeFailCount := Function.update s.writeFailCount t (s.writeFailCount t + 1)
      consecutiveIoErrors := s.consecutiveIoErrors + 1 }
    have hfailed : Calm { s with files := files } failed := .of_targets rfl rfl
    have hcalm := hfailed.trans (sdRecover_calm io failed t)
    have hnamed : (sdRecover io failed t).1.Named := hcalm.named hn
    have hrecovered := hretry.calm hcalm
    have hagain : Stores (s.targets t).imagePath lba data s
        (if (sdRecover io failed t).2 then
          sdWriteAttempt io (sdRecover io failed t).1 ((sdRecover io failed t).1.targets t).file lba data 3
        else ((sdRecover io failed t).1, false)) := by
      split
      next h =>
        have hm' := sdRecover_again h
        have hattempt := sdWriteAttempt_stores io hnamed hm' lba data 3
        rw [hcalm.mounted hm hm'] at hattempt
        exact hrecovered.trans hattempt
      next h => exact hrecovered
    obtain ⟨files', hfiles'⟩ := sdWriteAgain_files io (sdRecover io failed t).1 t lba data (sdRecover io failed t).2
    split
    next s₂ heq₂ =>
      rw [heq₂] at hagain hfiles'
      obtain rfl : s₂ = { (sdRecover io failed t).1 with files := files' } := hfiles'
      exact (hagain.calm (.of_targets rfl rfl)).shelved hm hnamed
    next s₂ heq₂ =>
      rw [heq₂] at hagain hfiles'
      obtain rfl : s₂ = { (sdRecover io failed t).1 with files := files' } := hfiles'
      have hgiven := disableAfter_calm { (sdRecover io failed t).1 with files := files' } t
        ((sdRecover io failed t).1.writeFailCount t)
      exact (hagain.calm hgiven).shelved hm (hgiven.named hnamed)

lemma sdStorageSync_calm (io : SdIo) (s : SdState) (t : ℕ) : Calm s (sdStorageSync io s t).1 := by
  unfold sdStorageSync
  split
  · exact .refl s
  split
  · exact .refl s
  split
  · exact .of_targets rfl rfl
  · dsimp only
    set failed : SdState := { s with
      syncFailCount := Function.update s.syncFailCount t (s.syncFailCount t + 1)
      consecutiveIoErrors := s.consecutiveIoErrors + 1 }
    have hcalm : Calm s (sdRecover io failed t).1 :=
      (Calm.of_targets rfl rfl : Calm s failed).trans (sdRecover_calm io failed t)
    split
    · exact hcalm.trans (.of_targets rfl rfl)
    · exact hcalm.trans (disableAfter_calm _ _ _)

lemma sdStorageInit_calm (io : SdIo) (s : SdState) : Calm s (sdStorageInit io s).1 := by
  unfold sdStorageInit
  split
  · exact .refl s
  split
  · exact .refl s
  split
  · exact .refl s
  · refine ⟨rfl, fun t => .inr rfl, fun _ t => ?_⟩
    rintro ⟨⟩

lemma SdState.shelf_setTarget (s : SdState) (t : ℕ) (x : SdTarget) :
    (s.setTarget t x).shelf = s.shelf.insert t x.image := by
  unfold SdState.shelf SdState.setTarget Shelf.insert
  congr 1
  funext u
  rcases eq_or_ne u t with rfl | hne
  · simp
  · simp [hne]

lemma sdStorageUnmount_shelved (hn : s.Named) (t : ℕ) : Shelved s (sdStorageUnmount s t).1
    (if (sdStorageUnmount s t).2 then .unmounted t else .nothing) := by
  have hcalm := (sdStorageUnmount_calm s t).shelved hn
  unfold sdStorageUnmount at hcalm ⊢
  split
  · exact (Calm.refl s).shelved hn
  split
  next hnot =>
    refine ⟨?_, hn⟩
    have hsame : s.shelf.insert t none = s.shelf := by
      have himage : s.shelf.image t = none := by simpa [SdState.shelf, SdTarget.image] using hnot
      unfold Shelf.insert
      rw [← himage, Function.update_eq_self]
    have hstep := Shelf.Step.unmounted s.shelf t
    rwa [hsame] at hstep
  next hinit hmounted =>
    rw [if_neg hinit, if_neg hmounted] at hcalm
    refine ⟨?_, hcalm.2⟩
    rw [SdState.shelf_setTarget]
    exact .unmounted s.shelf t

lemma sdStorageMount_shelved (io : SdIo) (hn : s.Named) (t : ℕ) {image : Path} (hshort : image.length ≤ 63)
    (readOnly : Bool) : Shelved s (sdStorageMount io s t image readOnly).1
      (if (sdStorageMount io s t image readOnly).2 then .mounted t image else .nothing) := by
  have hopen := (sdMountBase_calm s t).trans (sdOpenImage_calm io _)
  rcases sdStorageMount_cases io s t image readOnly with ⟨heq, -⟩ | ⟨-, -, ⟨-, heq⟩ | ⟨-, heq⟩⟩
  · rw [heq]
    exact (Calm.refl s).shelved hn
  · rw [heq]
    exact hopen.shelved hn
  · rw [heq, show truncatePath image = image from List.take_of_length_le hshort]
    have hnamed := hopen.named hn
    obtain ⟨gone, hgone⟩ := hopen.shelf
    set base := (sdOpenImage io (sdMountBase s t)).1
    refine ⟨?_, fun u => ?_⟩
    · dsimp only
      rw [SdState.shelf_setTarget, hgone]
      exact .mounted s.shelf gone t image
    · rcases eq_or_ne u t with rfl | hne
      · simp only [SdState.setTarget, Function.update_self]
        rintro - f ⟨⟩
        rfl
      · simpa [SdState.setTarget, hne] using hnamed u

/-- What an operation shows. -/
def SdOp.answer (s : SdState) : SdOp → Answer
  | .mount io t image readOnly =>
    if (sdStorageMount io s t image readOnly).2 then .mounted t image else .nothing
  | .unmount t => if (sdStorageUnmount s t).2 then .unmounted t else .nothing
  | .read io t lba => readShown t lba (sdStorageReadSector io s t lba).2
  | .write io t lba data => writeShown t lba data (sdStorageWriteSector io s t lba data).2
  | .init _ | .sync _ _ | .list _ => .nothing

/-- What a sequence of operations shows, one answer each. -/
def sdAnswers : SdState → List SdOp → List Answer
  | _, [] => []
  | s, op :: ops => op.answer s :: sdAnswers (sdStep s op).1 ops

/-- The name of an image fits the table of targets, and FatFS reads whole sectors inside a file. -/
def SdOp.Regular : SdOp → Prop
  | .mount _ _ image _ => image.length ≤ 63
  | .read io _ _ => io.ReadsWhole
  | .init _ | .unmount _ | .write _ _ _ _ | .sync _ _ | .list _ => True

lemma sdStep_shelved (hn : s.Named) {op : SdOp} (hop : op.Regular) :
    Shelved s (sdStep s op).1 (op.answer s) := by
  cases op with
  | init io => exact (sdStorageInit_calm io s).shelved hn
  | mount io t image readOnly => exact sdStorageMount_shelved io hn t hop readOnly
  | unmount t => exact sdStorageUnmount_shelved hn t
  | read io t lba => exact sdStorageReadSector_shelved hop hn t lba
  | write io t lba data => exact sdStorageWriteSector_shelved io hn t lba data
  | sync io t => exact (sdStorageSync_calm io s t).shelved hn
  | list io => exact (sdStorageListImages_calm io s).shelved hn

lemma sdRun_shelved {ops : List SdOp} (h : Guarded sdRun (fun _ op => op.Regular) s ops s') (hn : s.Named) :
    Trace Shelf.Step s.shelf (sdAnswers s ops) s'.shelf := by
  induction h with
  | nil s => exact .nil s.shelf
  | cons hop hs _ ih =>
    cases hs
    obtain ⟨hstep, hnamed⟩ := sdStep_shelved hn hop
    exact .cons hstep (ih hnamed)

/-- Whatever fails, is retried, recovered or given up, the answers of the backend are those of an
image shelf: it delivers what was last stored in the image a target was mounted with. -/
theorem sd_refines_shelf {files : Path → ℕ → Sector} {ops : List SdOp}
    (h : Guarded sdRun (fun _ op => op.Regular) (.initial files) ops s) :
    Trace Shelf.Step (.initial files) (sdAnswers (.initial files) ops) s.shelf := by
  have hnamed : (SdState.initial files).Named := by
    rintro t ⟨⟩
  exact sdRun_shelved h hnamed

/-- FatFS tears the first attempt of a write. -/
def tearingSd : SdIo :=
  { readySd with write := fun attempt => if attempt = 0 then (.diskErr, 0, fun _ => 1) else (.ok, 512, fun _ => 0) }

/-- An image is written, and read again once the card has been recovered. -/
def recoveredImage (data : Sector) : List SdOp :=
  [.init readySd, .mount readySd 0 [97] false, .write tearingSd 0 1 data, .read (deadSd .ok) 0 1,
    .read (deadSd .ok) 0 1, .read (deadSd .ok) 0 1, .read (deadSd .ok) 0 1, .read (deadSd .ok) 0 1,
    .read readySd 0 1]

/-- The torn attempt and the recovery do not show, and the read delivers what was written. -/
theorem sd_refines_shelf_recovered :
    ∃ d, Trace Shelf.Step (.initial fun _ _ _ => 0) [.nothing, .mounted 0 [97], .written 0 1 fun _ => 7,
      .nothing, .nothing, .nothing, .nothing, .nothing, .read 0 1 fun _ => 7] d := by
  have hrun : Guarded sdRun (fun _ op => op.Regular) (.initial fun _ _ _ => 0)
      (recoveredImage fun _ => 7) (sdAfter (recoveredImage fun _ => 7)) := by
    refine .of_total (fun _ _ => rfl) fun n hn => ?_
    have hn : n < 9 := hn
    interval_cases n
    · trivial
    · exact Nat.le_of_ble_eq_true rfl
    · trivial
    all_goals
      intro attempt hok
      exact le_refl 512
  have hread : (fun i : Fin 512 => if i.val < 512 then (7 : Byte) else 0) = fun _ => 7 := by
    funext i
    exact if_pos i.isLt
  have hanswers : sdAnswers (.initial fun _ _ _ => 0) (recoveredImage fun _ => 7) =
      [.nothing, .mounted 0 [97], .written 0 1 fun _ => 7, .nothing, .nothing, .nothing, .nothing, .nothing,
        .read 0 1 fun i => if i.val < 512 then (7 : Byte) else 0] := rfl
  rw [hread] at hanswers
  exact ⟨_, hanswers ▸ sd_refines_shelf hrun⟩

end PicoV9k.Storage
