import PicoV9k.ConsoleStatus

/-!
# The images of the card

Behind a target of the SD card stands the image file it records, behind one of the FujiNet
what its slot serves. Two FujiNet targets may serve one image, and a write through either
shows on both. An SD target is on its image as long as it records the name in full: a
recovery reopens what is recorded. Calls with names that fit the record keep it so.
-/
namespace PicoV9k.Storage
open PicoV9k.Bus

/-- An image on the SD card, or at the server of the FujiNet. -/
inductive ImageFile
  | absent
  | sd (path : Path)
  | fuji (path : Path)
  deriving DecidableEq, Repr

def Media.image (m : Media) : Backend → ℕ → ImageFile
  | .none, _ => .absent
  | .sdcard, t => .sd (m.sd.targets t).imagePath
  | .fujinet, t => match (m.fuji.slots t).served with
    | none => .absent
    | some image => .fuji image.1

def Media.disk (m : Media) : ImageFile → ℕ → Sector
  | .absent, _ => fun _ => 0
  | .sd path, lba => m.sd.files path lba
  | .fuji path, lba => m.fuji.images path lba

/-- Sound is a card whose open files are the ones their targets record. -/
def cardImages : ImageTable Media := ⟨ImageFile, Media.image, Media.disk, fun m => m.sd.Named⟩

/-- The name of an image fits the record of a target. -/
def Call.Short : Call → Prop
  | .mountOn _ _ image _ | .mount _ image _ => image.length < conopNameMax
  | .init _ | .unmount _ => True

lemma Mounted.named {st : Routing Media} {b : Backend} {t : ℕ} {image : Path} {r : Routing Media × Bool}
    (h : Mounted st b t image r) : r.1.media.sd.Named := by
  cases h with
  | failed hroute hfades => exact hfades.1
  | assigned hroute hb hnamed hothers himage => exact hnamed

/-- A call with a short name keeps the media sound. -/
lemma callStep_named {st : Routing Media} (hn : st.media.sd.Named) {call : Call × CallIo} (hshort : call.1.Short) :
    (callStep st call).1.media.sd.Named := by
  obtain ⟨call, io⟩ := call
  cases call with
  | init b =>
    have hinit := (backendEnsureInited_fades hn io.init b).1
    unfold callStep storageInit
    dsimp only
    split <;> exact hinit
  | mountOn b t image readOnly => exact (storageMountOn_mounted hn io.init io.op b t hshort readOnly).named
  | mount t image readOnly =>
    exact (storageMountOn_mounted hn io.init io.op st.activeBackend t hshort readOnly).named
  | unmount t => exact (storageUnmount_fades hn io.op t).1

lemma callsFrom_named {calls : List (Call × CallIo)} (hshort : ∀ call ∈ calls, call.1.Short)
    {st : Routing Media} (hn : st.media.sd.Named) : (callsFrom st calls).media.sd.Named := by
  induction calls generalizing st with
  | nil => exact hn
  | cons call calls ih =>
    exact ih (fun c hc => hshort c (List.mem_cons_of_mem call hc))
      (callStep_named hn (hshort call List.mem_cons_self))

lemma powerUp_named (files : Path → ℕ → Sector) (slots : ℕ → EspSlot) (images : Path → ℕ → Sector) :
    (powerUp files slots images).media.sd.Named := by
  rintro t ⟨⟩

variable {s s' s'' : SdState}

/-- Every target records the image it recorded. -/
def SamePaths (s s' : SdState) : Prop := ∀ t, (s'.targets t).imagePath = (s.targets t).imagePath

lemma SamePaths.trans (h : SamePaths s s') (g : SamePaths s' s'') : SamePaths s s'' :=
  fun t => (g t).trans (h t)

lemma SamePaths.of_targets (htargets : s'.targets = s.targets) : SamePaths s s' :=
  fun t => by rw [htargets]

lemma tryRemount_paths (io : RemountIo) (s : SdState) : SamePaths s (sdStorageTryRemount io s).1 := by
  intro t
  rw [sdStorageTryRemount_target]
  split
  · split
    · unfold SdTarget.reopen
      split <;> rfl
    · rfl
  · rfl

lemma sdRecover_paths (io : SdIo) (s : SdState) (t : ℕ) : SamePaths s (sdRecover io s t).1 := by
  have hremount := tryRemount_paths io.remount s
  unfold sdRecover
  split
  · split
    next s' heq => rwa [heq] at hremount
    next s' heq => rwa [heq] at hremount
  · exact fun _ => rfl

lemma disableAfter_paths (s : SdState) (t failures : ℕ) : SamePaths s (s.disableAfter t failures) := by
  intro u
  unfold SdState.disableAfter
  split
  · rcases eq_or_ne u t with rfl | hne
    · simp [sdStorageDisableTarget, SdState.setTarget]
    · simp [sdStorageDisableTarget, SdState.setTarget, hne]
  · rfl

lemma Accessed.paths {io : SdIo} {k : SdKind} {t : ℕ} {exhausted : Bool} {r : SdState × Bool}
    (h : Accessed io s k t exhausted r) : SamePaths s r.1 := by
  have hrecover (files : Path → ℕ → Sector) : SamePaths s (sdRecover io (s.failed k t files) t).1 :=
    (SamePaths.of_targets (s.setCount_targets k t _) : SamePaths s (s.failed k t files)).trans
      (sdRecover_paths io _ t)
  cases h with
  | done files => exact .of_targets (s.setCount_targets k t 0)
  | recovered files files' errors => exact (hrecover files).trans (.of_targets (SdState.setCount_targets _ k t 0))
  | failed files files' =>
    refine (hrecover files).trans (SamePaths.trans ?_ (disableAfter_paths _ t _))
    exact .of_targets rfl

lemma sdStorageReadSector_paths (io : SdIo) (s : SdState) (t lba : ℕ) :
    SamePaths s (sdStorageReadSector io s t lba).1 := by
  cases h : (SdOp.read io t lba).access s with
  | none =>
    rw [sdStorageReadSector_rejected h]
    exact fun _ => rfl
  | some access => exact (sdStorageReadSector_accessed h).paths

lemma sdStorageWriteSector_paths (io : SdIo) (s : SdState) (t lba : ℕ) (data : Sector) :
    SamePaths s (sdStorageWriteSector io s t lba data).1 := by
  cases h : (SdOp.write io t lba data).access s with
  | none =>
    rw [sdStorageWriteSector_rejected h]
    exact fun _ => rfl
  | some access => exact (sdStorageWriteSector_accessed h).paths

lemma sdStorageSync_paths (io : SdIo) (s : SdState) (t : ℕ) : SamePaths s (sdStorageSync io s t).1 := by
  cases h : (SdOp.sync io t).access s with
  | none =>
    rw [sdStorageSync_rejected h]
    exact fun _ => rfl
  | some access => exact (sdStorageSync_accessed h).paths

/-- What the backend does behind the recorded names shows in the files only. -/
lemma SamePaths.image (h : SamePaths s s') (m : Media) (hm : m.sd = s) :
    Media.image { m with sd := s' } = m.image := by
  subst hm
  funext b t
  cases b with
  | sdcard => exact congrArg ImageFile.sd (h t)
  | none | fujinet => rfl

/-- A calm backend keeps all images. -/
lemma Calm.kept {m : Media} (h : Calm m.sd s') (hpaths : SamePaths m.sd s') :
    cardImages.Kept m { m with sd := s' } where
  image := hpaths.image m rfl
  disk := by
    funext i lba
    cases i with
    | sd path => exact congrFun (congrFun h.files path) lba
    | absent | fuji path => rfl
  sound := h.named

/-- On the shelf a write reaches its own sector at most. -/
lemma Shelf.Step.disks {d d' : Shelf} {t lba : ℕ} {data : Sector} {ok : Bool}
    (h : Shelf.Step d (writeShown t lba data ok) d') :
    (ok = false ∧ d'.disks = d.disks) ∨ ∃ p left, d.image t = some p ∧ (ok = true → left = data) ∧
      d'.disks = (d.stored p lba left).disks := by
  cases ok with
  | true =>
    cases h with
    | written himage gone => exact .inr ⟨_, data, himage, fun _ => rfl, rfl⟩
  | false =>
    cases h with
    | torn himage gone _ left => exact .inr ⟨_, left, himage, nofun, rfl⟩
    | refused => exact .inl ⟨rfl, rfl⟩

lemma SdTarget.image_eq {x : SdTarget} {p : Path} (h : x.image = some p) : x.imagePath = p := by
  unfold SdTarget.image at h
  split at h
  · exact Option.some.inj h
  · cases h

lemma sdWrite_stored (io : SdIo) {m : Media} (hn : m.sd.Named) (t lba : ℕ) (data : Sector) :
    cardImages.Stored (.sd (m.sd.targets t).imagePath) lba data m
      (m.onSd (sdStorageWriteSector io m.sd t lba data)) := by
  obtain ⟨hstep, hnamed⟩ := sdStorageWriteSector_shelved io hn t lba data
  have himage : Media.image { m with sd := (sdStorageWriteSector io m.sd t lba data).1 } = m.image :=
    (sdStorageWriteSector_paths io m.sd t lba data).image m rfl
  generalize sdStorageWriteSector io m.sd t lba data = r at hstep hnamed himage
  obtain ⟨s', ok⟩ := r
  rcases hstep.disks with ⟨rfl, hsame⟩ | ⟨p, left, hp, hleft, hdisks⟩
  · have hfiles : s'.files = m.sd.files := hsame
    refine ⟨himage, fun i l _ => ?_, nofun, hnamed⟩
    cases i with
    | sd path => exact congrFun (congrFun hfiles path) l
    | absent | fuji path => rfl
  · have hpath : (m.sd.targets t).imagePath = p := SdTarget.image_eq hp
    have hfiles : s'.files = Function.update m.sd.files p (Function.update (m.sd.files p) lba left) := hdisks
    refine ⟨himage, fun i l hne => ?_, fun hok => ?_, hnamed⟩
    · cases i with
      | sd path =>
        show s'.files path l = m.sd.files path l
        rw [hfiles]
        by_cases hpp : path = p
        · subst hpp
          have hl : l ≠ lba := fun hl => hne (by rw [hl, hpath])
          rw [Function.update_self, Function.update_of_ne hl]
        · rw [Function.update_of_ne hpp]
      | absent | fuji path => rfl
    · show s'.files (m.sd.targets t).imagePath lba = data
      rw [hfiles, hpath, Function.update_self, Function.update_self, hleft hok]

lemma sdRecover_initialized (io : SdIo) (s : SdState) (t : ℕ) :
    (sdRecover io s t).1.initialized = s.initialized := by
  have hremount := sdStorageTryRemount_initialized io.remount s
  unfold sdRecover
  split
  · split
    next s' heq => rwa [heq] at hremount
    next s' heq => rwa [heq] at hremount
  · rfl

/-- A target that was just written successfully is still mounted. -/
lemma sdStorageWriteSector_mounted {io : SdIo} {t lba : ℕ} {data : Sector}
    (hm : sdStorageIsMounted s t = true) (h : (sdStorageWriteSector io s t lba data).2 = true) :
    sdStorageIsMounted (sdStorageWriteSector io s t lba data).1 t = true := by
  have hmounted (r : SdState) (hinit : r.initialized = s.initialized) (hr : (r.targets t).mounted = true) :
      sdStorageIsMounted r t = true := by
    unfold sdStorageIsMounted at hm ⊢
    rw [hinit]
    split at hm
    · cases hm
    next hready => rw [if_neg hready, hr]
  have hs : (s.targets t).mounted = true := by
    unfold sdStorageIsMounted at hm
    split at hm
    · cases hm
    · exact hm
  unfold sdStorageWriteSector at h ⊢
  split
  next hbad => rw [if_pos hbad] at h; cases h
  next hready =>
  rw [if_neg hready] at h
  split
  next hbad => rw [if_pos hbad] at h; cases h
  next hon =>
  rw [if_neg hon] at h
  split
  next hbad => rw [if_pos hbad] at h; cases h
  next hwritable =>
  rw [if_neg hwritable] at h
  split
  next hbad => rw [if_pos hbad] at h; cases h
  next hinside =>
  rw [if_neg hinside] at h
  obtain ⟨files, hfiles⟩ := sdWriteRetry_files io (s.targets t).file lba data 3 s
  split
  next s' heq =>
    rw [heq] at hfiles
    obtain rfl : s' = { s with files := files } := hfiles
    exact hmounted _ rfl hs
  next s' heq =>
    rw [heq] at hfiles h
    obtain rfl : s' = { s with files := files } := hfiles
    dsimp only at h ⊢
    set failed : SdState := { s with
      files := files
      writeFailCount := Function.update s.writeFailCount t (s.writeFailCount t + 1)
      consecutiveIoErrors := s.consecutiveIoErrors + 1 }
    obtain ⟨files', hfiles'⟩ := sdWriteAgain_files io (sdRecover io failed t).1 t lba data (sdRecover io failed t).2
    split
    next s₂ heq₂ =>
      rw [heq₂] at hfiles'
      obtain rfl : s₂ = { (sdRecover io failed t).1 with files := files' } := hfiles'
      have hagain : (sdRecover io failed t).2 = true := by
        by_contra hno
        rw [if_neg hno] at heq₂
        cases congrArg Prod.snd heq₂
      exact hmounted _ (sdRecover_initialized io failed t) (sdRecover_again hagain)
    next s₂ heq₂ =>
      rw [heq₂] at h
      cases h

lemma fujiRead_kept (io : FujiIo) (m : Media) (t lba : ℕ) :
    cardImages.Kept m (m.onFuji (fujiStorageReadSector io m.fuji t lba)).1 := by
  have hsame : (fujiStorageReadSector io m.fuji t lba).1 = m.fuji := by
    unfold fujiStorageReadSector
    split
    · rfl
    · split <;> rfl
  rw [Media.onFuji, hsame]
  exact .refl m

lemma fujiRead_data {io : FujiIo} {m : Media} {t lba : ℕ} {data : Sector}
    (h : (fujiStorageReadSector io m.fuji t lba).2 = some data) :
    data = m.disk (m.image .fujinet t) lba := by
  unfold fujiStorageReadSector at h
  split at h
  · cases h
  · split at h
    next image hserved _ =>
      simp only [Media.image, hserved]
      exact (Option.some.inj h).symm
    · cases h

lemma fujiWrite_stored (io : FujiIo) {m : Media} (hn : m.sd.Named) (t lba : ℕ) (data : Sector) :
    cardImages.Stored (m.image .fujinet t) lba data m
      (m.onFuji (fujiStorageWriteSector io m.fuji t lba data)) := by
  have hrefused : cardImages.Stored (m.image .fujinet t) lba data m (m, false) := .refused _ lba data hn
  unfold fujiStorageWriteSector
  split
  · exact hrefused
  split
  · exact hrefused
  split
  · exact hrefused
  next image hserved =>
    have hbehind : m.image .fujinet t = .fuji image.1 := by simp only [Media.image, hserved]
    rw [hbehind]
    cases happlied : io.write.applied with
    | false =>
      have hlost : io.write.ok = false := by
        cases hw : io.write with
        | acked => simp [hw, TxResult.applied] at happlied
        | lost applied => rfl
      rw [if_neg Bool.false_ne_true, hlost]
      exact .refused _ lba data hn
    | true =>
      rw [if_pos rfl]
      refine ⟨rfl, fun i l hne => ?_, fun _ => ?_, hn⟩
      · cases i with
        | fuji path =>
          show Function.update m.fuji.images image.1 _ path l = m.fuji.images path l
          by_cases hpath : path = image.1
          · subst hpath
            have hl : l ≠ lba := fun hl => hne (by rw [hl])
            rw [Function.update_self, Function.update_of_ne hl]
          · rw [Function.update_of_ne hpath]
        | absent | sd path => rfl
      · show Function.update m.fuji.images image.1 _ image.1 lba = data
        rw [Function.update_self, Function.update_self]

lemma fujiStorageWriteSector_mounted {io : FujiIo} {s : FujiState} {t lba : ℕ} {data : Sector}
    (hm : fujiStorageIsMounted s t = true) :
    fujiStorageIsMounted (fujiStorageWriteSector io s t lba data).1 t = true := by
  have hsame : (fujiStorageWriteSector io s t lba data).1.targets = s.targets := by
    unfold fujiStorageWriteSector
    split
    · rfl
    split
    · rfl
    split
    · rfl
    · dsimp only
      split <;> rfl
  unfold fujiStorageIsMounted at hm ⊢
  rw [hsame]
  exact hm

/-- The two registered backends, while `f_read` delivers whole sectors. -/
def cardView : WritableView cardRegistry where
  toImageTable := cardImages
  Honest io := io.sd.ReadsWhole
  read_kept := by
    intro b ops hops io m t lba
    cases b with
    | none => cases hops
    | sdcard =>
      cases hops
      exact (sdStorageReadSector_reads io.sd m.sd t lba).1.kept (sdStorageReadSector_paths io.sd m.sd t lba)
    | fujinet =>
      cases hops
      exact fujiRead_kept io.fuji m t lba
  read_data := by
    intro b ops hops io m t lba data hio hn h
    cases b with
    | none => cases hops
    | sdcard =>
      cases hops
      exact ((sdStorageReadSector_reads io.sd m.sd t lba).2 data h hn hio).2
    | fujinet =>
      cases hops
      exact fujiRead_data h
  write_stored := by
    intro b ops hops io m t lba data hn
    cases b with
    | none => cases hops
    | sdcard =>
      cases hops
      exact sdWrite_stored io.sd hn t lba data
    | fujinet =>
      cases hops
      exact fujiWrite_stored io.fuji hn t lba data
  write_mounted := by
    intro b ops hops io m t lba data hm h
    cases b with
    | none => cases hops
    | sdcard =>
      cases hops
      exact sdStorageWriteSector_mounted hm h
    | fujinet =>
      cases hops
      exact fujiStorageWriteSector_mounted hm
  sync_kept := by
    intro b ops hops io m t
    cases b with
    | none => cases hops
    | sdcard =>
      cases hops
      exact (sdStorageSync_calm io.sd m.sd t).kept (sdStorageSync_paths io.sd m.sd t)
    | fujinet =>
      cases hops
      exact .refl m

end PicoV9k.Storage
