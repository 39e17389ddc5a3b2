import PicoV9k.StorageOwnership
import Mathlib.Data.List.Sort

/-!
# Which image boots

Core 1 initialises the SD backend and mounts the scanned images in order, one for
each target. The table of the scan is cut to eight names before it is sorted, so
that the assignment depends on the directory order as soon as a ninth image exists.
-/
namespace PicoV9k.Storage
open PicoV9k.Bus

/-- `SD_DISK_IMAGE`, "victor.img". -/
def sdDiskImage : Path := [0x76, 0x69, 0x63, 0x74, 0x6F, 0x72, 0x2E, 0x69, 0x6D, 0x67]

/-- The mounts of the boot, as target and image. -/
def bootMounts (names : List Path) : List (ℕ × Path) :=
  if names = [] then [(0, sdDiskImage)]
  else
    (List.range (min names.length storageMaxTargets)).filterMap fun t =>
      (names[t]?).map fun image => (t, image)

/-- The storage part of `core1_main`; `io` answers the calls made for an image. -/
def core1Main (io : Path → StorageIo) (st : Routing Media) : Routing Media :=
  match storageInit cardRegistry (io []) st .sdcard with
  | (st, true) =>
    (bootMounts st.media.sd.fileNames).foldl
      (fun st m => (storageMount cardRegistry (io m.2) (io m.2) st m.1 m.2 false).1) st
  | (st, false) =>
    match storageInit cardRegistry (io []) st .fujinet with
    | (st, true) => (storageMount cardRegistry (io []) (io []) st 0 [] false).1
    | (st, false) => st

/-- A root directory in card order: the names are not empty, and those of images are
distinct up to case and fit their field. -/
structure RootDirectory where
  entries : List Path
  named : ∀ p ∈ entries, p ≠ []
  distinct : (entries.filter matchesPattern).Pairwise fun a b => foldCase a ≠ foldCase b
  short : ∀ p ∈ entries, matchesPattern p = true → p.length ≤ 63

def RootDirectory.images (d : RootDirectory) : List Path := d.entries.filter matchesPattern

/-- The images in ascending order, whatever the order of the directory. -/
def RootDirectory.ascending (d : RootDirectory) : List Path :=
  d.images.insertionSort fun a b => foldCase a ≤ foldCase b

/-- A working card: a file opens if the directory has it, under any case. -/
def RootDirectory.io (d : RootDirectory) (size : Path → ℕ) (image : Path) : StorageIo where
  sd := { readySd with
    dirEntries := d.entries
    open1 :=
      if d.entries.any fun p => foldCase p == foldCase image then (.ok, size image)
      else (.noFile, 0) }
  fuji := readyFuji

/-- The image that a target serves from the SD card. -/
def servedImage (st : Routing Media) (t : ℕ) : Option Path :=
  if storageIsMounted cardRegistry st t then (st.media.sd.targets t).file.map (·.path) else none

/-- The image that target `t` serves once the card with directory `d` has booted. -/
def RootDirectory.bootImage (d : RootDirectory) (size : Path → ℕ) (t : ℕ) : Option Path :=
  servedImage (core1Main (d.io size) emptyCard) t

/-- The SD backend is up and active, and target `t` serves `images t`. -/
structure Booted (st : Routing Media) (images : ℕ → Option Path) : Prop where
  inited : st.backendInited .sdcard = true
  active : st.activeBackend = .sdcard
  ready : st.media.sd.initialized = true
  serves : ∀ t, servedImage st t = images t

/-- What `servedImage` looks at. -/
lemma servedImage_congr {st st' : Routing Media} {t : ℕ}
    (hroute : st'.targetBackend t = st.targetBackend t) (hfuji : st'.media.fuji = st.media.fuji)
    (hinit : st'.media.sd.initialized = st.media.sd.initialized)
    (htarget : st'.media.sd.targets t = st.media.sd.targets t) :
    servedImage st' t = servedImage st t := by
  have hops : opsForTarget cardRegistry st' t = opsForTarget cardRegistry st t := by
    simp only [opsForTarget, hroute]
  unfold servedImage storageIsMounted
  rw [hops, htarget]
  cases hreg : opsForTarget cardRegistry st t with
  | none => rfl
  | some ops =>
    have hb := opsForTarget_reg hreg
    cases hroute' : st.targetBackend t with
    | none => simp [hroute', cardRegistry] at hb
    | fujinet =>
      rw [hroute'] at hb
      cases hb
      simp only [fujiOps, hfuji]
      rfl
    | sdcard =>
      rw [hroute'] at hb
      cases hb
      simp [sdOps, sdStorageIsMounted, hinit, htarget]

/-- Mounting an image that opens gives it to its target, and to no other. -/
lemma storageMount_booted {st : Routing Media} {images : ℕ → Option Path} (h : Booted st images)
    {io : StorageIo} {t : ℕ} (image : Path) (ht : t < storageMaxTargets)
    (hopen : io.sd.open1.1 = .ok) :
    Booted (storageMount cardRegistry io io st t image false).1
      (Function.update images t (some image)) := by
  have hsdOpen : sdOpenImage io.sd (sdMountBase st.media.sd t) =
      (sdMountBase st.media.sd t, io.sd.open1) := by
    simp [sdOpenImage, hopen]
  have hmount : sdStorageMount io.sd st.media.sd t image false =
      ((sdMountBase st.media.sd t).setTarget t {
        mounted := true
        readOnly := false
        imagePath := truncatePath image
        file := some ⟨image, (sdMountBase st.media.sd t).generation, io.sd.open1.2⟩
        capacitySectors := io.sd.open1.2 / 512 }, true) := by
    rcases sdStorageMount_cases io.sd st.media.sd t image false with
      ⟨_, hinit | hge⟩ | ⟨_, _, ⟨hne, _⟩ | ⟨_, heq⟩⟩
    · rw [h.ready] at hinit
      cases hinit
    · omega
    · rw [hsdOpen] at hne
      exact absurd hopen hne
    · rw [heq, hsdOpen]
  have hbase : (sdMountBase st.media.sd t).initialized = true := by
    have := sdStorageMount_initialized io.sd st.media.sd t image false
    rw [hmount] at this
    exact this.trans h.ready
  have hinited : backendEnsureInited cardRegistry io st .sdcard = (st, true) := by
    simp [backendEnsureInited, h.inited]
  have hstep : (storageMount cardRegistry io io st t image false).1 =
      { st with
        media := { st.media with sd := (sdStorageMount io.sd st.media.sd t image false).1 }
        targetBackend := Function.update st.targetBackend t .sdcard } := by
    simp [storageMount, storageMountOn, Nat.not_le.mpr ht, h.active, hinited, cardRegistry, sdOps,
      Media.onSd, hmount]
  rw [hstep, hmount]
  refine ⟨h.inited, h.active, hbase, fun t' => ?_⟩
  rcases eq_or_ne t' t with rfl | hne
  · simp [servedImage, storageIsMounted, opsForTarget, Nat.not_le.mpr ht, cardRegistry, sdOps,
      sdStorageIsMounted, hbase, SdState.setTarget]
  · rw [Function.update_of_ne hne, ← h.serves t']
    apply servedImage_congr
    · exact Function.update_of_ne hne _ _
    · rfl
    · exact hbase.trans h.ready.symm
    · simp [SdState.setTarget, hne, sdMountBase_target_ne hne]

lemma RootDirectory.open_ok (d : RootDirectory) (size : Path → ℕ) {image : Path}
    (h : image ∈ d.entries) : (d.io size image).sd.open1.1 = .ok := by
  have hany : (d.entries.any fun p => foldCase p == foldCase image) = true :=
    List.any_eq_true.mpr ⟨image, h, by simp⟩
  simp [RootDirectory.io, hany]

/-- The table after the scan and the sort. -/
def RootDirectory.table (d : RootDirectory) : List Path := sortNames (d.images.take maxImgFiles)

lemma RootDirectory.truncate (d : RootDirectory) : d.images.map truncatePath = d.images := by
  refine (List.map_congr_left fun p hp => ?_).trans (List.map_id _)
  obtain ⟨hmem, hmatch⟩ := List.mem_filter.mp hp
  exact List.take_of_length_le (d.short p hmem hmatch)

lemma RootDirectory.scan (d : RootDirectory) :
    sortNames (scanNames d.entries []) = d.table := by
  rw [scanNames_eq d.named]
  simp only [List.nil_append, List.length_nil, Nat.sub_zero, RootDirectory.table]
  rw [← d.truncate]
  rfl

lemma RootDirectory.mem_table (d : RootDirectory) {p : Path} (h : p ∈ d.table) : p ∈ d.images :=
  List.mem_of_mem_take ((sortNames_perm _).mem_iff.mp h)

lemma RootDirectory.table_length (d : RootDirectory) :
    d.table.length = min maxImgFiles d.images.length := by
  rw [RootDirectory.table, (sortNames_perm _).length_eq, List.length_take]

/-- The card after `storage_init`, before the first mount. -/
def RootDirectory.initialized (d : RootDirectory) : Routing Media :=
  { emptyCard with
    backendInited := Function.update emptyCard.backendInited .sdcard true
    activeBackend := .sdcard
    media := { emptyCard.media with
      sd := { emptyCard.media.sd with
        initialized := true, generation := 1, fileNames := d.table, targets := fun _ => .initial } } }

lemma RootDirectory.storageInit_eq (d : RootDirectory) (size : Path → ℕ) :
    storageInit cardRegistry (d.io size []) emptyCard .sdcard = (d.initialized, true) := by
  rw [RootDirectory.initialized, ← d.scan]
  rfl

lemma servedImage_unrouted {st : Routing Media} {t : ℕ} (h : st.targetBackend t = .none) :
    servedImage st t = none := by
  simp [servedImage, storageIsMounted, opsForTarget, h]

lemma RootDirectory.initialized_booted (d : RootDirectory) :
    Booted d.initialized fun _ => none where
  inited := rfl
  active := rfl
  ready := rfl
  serves := fun _ => servedImage_unrouted rfl

lemma matchesPattern_sdDiskImage {p : Path} (hp : foldCase p = foldCase sdDiskImage) :
    matchesPattern p = true := by
  have hlen : p.length = 10 := by
    have := congrArg List.length hp
    simpa [foldCase, sdDiskImage] using this
  have hhead : p.head? ≠ some 0x2E := by
    intro hdot
    cases p with
    | nil => cases hdot
    | cons b rest =>
      cases hdot
      have := congrArg List.head? hp
      simp [foldCase, sdDiskImage, toLower] at this
  have hdrop : foldCase (p.drop 6) = foldCase imgExtension := by
    have := congrArg (List.drop 6) hp
    simpa [foldCase, ← List.map_drop, sdDiskImage, imgExtension] using this
  have hhead' : ¬ p.head? = some 46#8 := hhead
  simp [matchesPattern, hlen, hhead', hdrop]

/-- The default image is looked for in vain when the directory has no image. -/
lemma RootDirectory.default_missing (d : RootDirectory) (size : Path → ℕ) (h : d.images = []) :
    (d.io size sdDiskImage).sd.open1 = (.noFile, 0) := by
  have hmissing : (d.entries.any fun p => foldCase p == foldCase sdDiskImage) = false := by
    by_contra hany
    obtain ⟨p, hp, heq⟩ := List.any_eq_true.mp (Bool.not_eq_false _ ▸ hany)
    have hmem : p ∈ d.images :=
      List.mem_filter.mpr ⟨hp, matchesPattern_sdDiskImage (by simpa using heq)⟩
    rw [h] at hmem
    cases hmem
  simp [RootDirectory.io, hmissing]

lemma RootDirectory.default_unrouted (d : RootDirectory) (size : Path → ℕ) (h : d.images = [])
    (t : ℕ) :
    (storageMount cardRegistry (d.io size sdDiskImage) (d.io size sdDiskImage) d.initialized 0
      sdDiskImage false).1.targetBackend t = .none := by
  have hmount : (sdStorageMount (d.io size sdDiskImage).sd d.initialized.media.sd 0 sdDiskImage
      false).2 = false := by
    rcases sdStorageMount_cases (d.io size sdDiskImage).sd d.initialized.media.sd 0 sdDiskImage
      false with ⟨heq, _⟩ | ⟨_, _, ⟨_, heq⟩ | ⟨hok, _⟩⟩
    · rw [heq]
    · rw [heq]
    · simp [sdOpenImage, d.default_missing size h, FResult.isMissing] at hok
  have hinited : backendEnsureInited cardRegistry (d.io size sdDiskImage) d.initialized .sdcard =
      (d.initialized, true) := by
    simp [backendEnsureInited, d.initialized_booted.inited]
  simp only [storageMount, storageMountOn, d.initialized_booted.active, hinited, cardRegistry, sdOps,
    Media.onSd, hmount]
  rfl

/-- The mount loop, up to target `n`. -/
lemma bootMounts_booted (d : RootDirectory) (size : Path → ℕ) {st : Routing Media}
    (h : Booted st fun _ => none) {n : ℕ} (hn : n ≤ d.table.length) (hmax : n ≤ storageMaxTargets) :
    Booted
      (((List.range n).filterMap fun t => (d.table[t]?).map fun image => (t, image)).foldl
        (fun st m => (storageMount cardRegistry (d.io size m.2) (d.io size m.2) st m.1 m.2 false).1) st)
      (fun t => if t < n then d.table[t]? else none) := by
  induction n with
  | zero => simpa using h
  | succ n ih =>
    have hlt : n < d.table.length := hn
    have hget : d.table[n]? = some d.table[n] := List.getElem?_eq_getElem hlt
    have hopen := d.open_ok size
      (List.mem_of_mem_filter (d.mem_table (List.getElem_mem hlt)))
    have hstep := storageMount_booted (ih (Nat.le_of_succ_le hn) (Nat.le_of_succ_le hmax))
      d.table[n] (Nat.lt_of_succ_le hmax) hopen
    simp only [List.range_succ, List.filterMap_append, List.foldl_append, List.filterMap_cons, hget,
      Option.map_some, List.filterMap_nil, List.foldl_cons, List.foldl_nil]
    convert hstep using 1
    funext t
    rcases Nat.lt_trichotomy t n with hlt' | rfl | hgt
    · simp [hlt', Nat.lt_succ_of_lt hlt', Nat.ne_of_lt hlt']
    · simp [hget]
    · simp [Nat.ne_of_gt hgt, Nat.not_lt_of_gt hgt, show ¬ t < n + 1 by omega]

/-- A booted card serves its table, in order. -/
lemma RootDirectory.bootImage_eq (d : RootDirectory) (size : Path → ℕ) (t : ℕ) :
    d.bootImage size t = d.table[t]? := by
  have hlen := d.table_length
  unfold RootDirectory.bootImage core1Main
  rw [d.storageInit_eq size]
  simp only [bootMounts, show d.initialized.media.sd.fileNames = d.table from rfl]
  by_cases hempty : d.table = []
  · have himages : d.images = [] := by
      have hmax : 0 < maxImgFiles := by decide
      have hzero : d.table.length = 0 := by rw [hempty]; rfl
      exact List.length_eq_zero_iff.mp (by omega)
    rw [if_pos hempty, hempty]
    exact servedImage_unrouted (d.default_unrouted size himages t)
  · rw [if_neg hempty]
    have hle : d.table.length ≤ storageMaxTargets := by
      rw [hlen]
      exact Nat.min_le_left _ _
    rw [Nat.min_eq_left hle,
      (bootMounts_booted d size d.initialized_booted le_rfl hle).serves t]
    split
    · rfl
    next hge => exact (List.getElem?_eq_none (by omega)).symm

lemma foldCase_injOn_images (d : RootDirectory) {a b : Path} (ha : a ∈ d.images) (hb : b ∈ d.images)
    (h : foldCase a = foldCase b) : a = b := by
  by_contra hne
  have : Std.Symm fun a b : Path => foldCase a ≠ foldCase b := ⟨fun _ _ h => h.symm⟩
  exact d.distinct.forall ha hb hne h

/-- Two ascending lists of the same images are equal. -/
lemma ascending_unique (d : RootDirectory) {l l' : List Path} (hl : ∀ p ∈ l, p ∈ d.images)
    (hperm : l.Perm l') (h : l.Pairwise fun a b => foldCase a ≤ foldCase b)
    (h' : l'.Pairwise fun a b => foldCase a ≤ foldCase b) : l = l' := by
  refine List.Perm.eq_of_pairwise (fun a b ha hb hab hba => ?_) h h' hperm
  exact foldCase_injOn_images d (hl a ha) (hl b (hperm.mem_iff.mpr hb)) (le_antisymm hab hba)

lemma RootDirectory.ascending_pairwise (d : RootDirectory) :
    d.ascending.Pairwise fun a b => foldCase a ≤ foldCase b := by
  have : IsTrans Path fun a b => foldCase a ≤ foldCase b := ⟨fun _ _ _ h h' => h.trans h'⟩
  have : Std.Total fun a b : Path => foldCase a ≤ foldCase b := ⟨fun _ _ => le_total _ _⟩
  exact List.pairwise_insertionSort _ _

lemma RootDirectory.ascending_perm (d : RootDirectory) : d.ascending.Perm d.images :=
  List.perm_insertionSort _ _

/-- With at most eight images the table is the ascending list of any reordering. -/
lemma RootDirectory.table_eq (d d' : RootDirectory) (hperm : d.entries.Perm d'.entries)
    (h : d.images.length ≤ maxImgFiles) : d'.table = d.ascending := by
  have himages : d.images.Perm d'.images := hperm.filter _
  have htable : d'.table.Perm d'.images := by
    rw [RootDirectory.table, List.take_of_length_le (himages.length_eq ▸ h)]
    exact sortNames_perm _
  refine ascending_unique d' (fun p hp => htable.mem_iff.mp hp) ?_ (sortNames_ascending _)
    d.ascending_pairwise
  exact htable.trans (himages.symm.trans d.ascending_perm.symm)

/-- The directory rewritten with image `p` behind all other images. -/
def RootDirectory.moveLast (d : RootDirectory) (p : Path) (hp : p ∈ d.entries) : RootDirectory :=
  have hperm : (d.entries.erase p ++ [p]).Perm d.entries :=
    (List.perm_append_singleton p _).trans (List.perm_cons_erase hp).symm
  { entries := d.entries.erase p ++ [p]
    named := fun q hq => d.named q (hperm.mem_iff.mp hq)
    distinct := (hperm.filter _).symm.pairwise d.distinct Ne.symm
    short := fun q hq => d.short q (hperm.mem_iff.mp hq) }

lemma RootDirectory.moveLast_perm (d : RootDirectory) {p : Path} (hp : p ∈ d.entries) :
    d.entries.Perm (d.moveLast p hp).entries :=
  (List.perm_cons_erase hp).trans (List.perm_append_singleton p _).symm

/-- Behind eight other images, an image is not in the table. -/
lemma RootDirectory.moveLast_dropped (d : RootDirectory) {p : Path} (hp : p ∈ d.images)
    (hmany : maxImgFiles < d.images.length) :
    p ∉ (d.moveLast p (List.mem_of_mem_filter hp)).table := by
  obtain ⟨hentry, hmatch⟩ := List.mem_filter.mp hp
  have himages : (d.moveLast p hentry).images = (d.entries.erase p).filter matchesPattern ++ [p] := by
    simp [RootDirectory.images, RootDirectory.moveLast, hmatch]
  have hlen : d.images.length = ((d.entries.erase p).filter matchesPattern).length + 1 := by
    have hperm : d.images.Perm (d.moveLast p hentry).images := (d.moveLast_perm hentry).filter _
    rw [hperm.length_eq, himages, List.length_append]
    rfl
  intro hmem
  have hfirst := (sortNames_perm _).mem_iff.mp hmem
  rw [himages, List.take_append_of_le_length (by omega)] at hfirst
  have hdistinct := (d.moveLast p hentry).distinct
  rw [show (d.moveLast p hentry).entries.filter matchesPattern = _ from himages] at hdistinct
  exact (List.pairwise_append.mp hdistinct).2.2 p (List.mem_of_mem_take hfirst) p
    List.mem_cons_self rfl

/-- The boot assigns the first images in ascending order, for every order of the
directory, exactly when there are no more than eight of them. -/
theorem bootImage_orderIndependent (d : RootDirectory) (size : Path → ℕ) :
    (∀ d' : RootDirectory, d.entries.Perm d'.entries →
      ∀ t, d'.bootImage size t = (d.ascending.take storageMaxTargets)[t]?) ↔
    d.images.length ≤ maxImgFiles := by
  constructor
  · intro h
    by_contra hmany
    have hmany := Nat.lt_of_not_le hmany
    obtain ⟨p, rest, hasc⟩ : ∃ p rest, d.ascending = p :: rest := by
      apply List.exists_cons_of_ne_nil
      rintro hnil
      have hlen := d.ascending_perm.length_eq
      rw [hnil] at hlen
      simp [← hlen] at hmany
    have hp : p ∈ d.images := d.ascending_perm.mem_iff.mp (hasc ▸ List.mem_cons_self)
    have hserved := h (d.moveLast p (List.mem_of_mem_filter hp)) (d.moveLast_perm _) 0
    rw [RootDirectory.bootImage_eq, hasc] at hserved
    exact d.moveLast_dropped hp hmany (List.mem_of_getElem? hserved)
  · intro hfew d' hperm t
    have hlen : d.ascending.length ≤ storageMaxTargets := d.ascending_perm.length_eq.trans_le hfew
    rw [RootDirectory.bootImage_eq, d.table_eq d' hperm hfew, List.take_of_length_le hlen]

/-- Nine images, "b.img" to "i.img" and then "a.img". -/
def nineImages : RootDirectory where
  entries := [0x62, 0x63, 0x64, 0x65, 0x66, 0x67, 0x68, 0x69, 0x61].map fun b => b :: imgExtension
  named := by decide
  distinct := by decide
  short := by decide

/-- The same nine images, copied to the card with "a.img" first. -/
def nineImagesRecopied : RootDirectory where
  entries := [0x61, 0x62, 0x63, 0x64, 0x65, 0x66, 0x67, 0x68, 0x69].map fun b => b :: imgExtension
  named := by decide
  distinct := by decide
  short := by decide

/-- Recopying the nine images changes the boot drive. -/
theorem bootImage_nineImages :
    nineImages.entries.Perm nineImagesRecopied.entries ∧
      nineImages.bootImage (fun _ => 1024) 0 = some (0x62 :: imgExtension) ∧
      nineImagesRecopied.bootImage (fun _ => 1024) 0 = some (0x61 :: imgExtension) := by
  refine ⟨by decide, ?_, ?_⟩
  · rw [RootDirectory.bootImage_eq]
    decide
  · rw [RootDirectory.bootImage_eq]
    decide

end PicoV9k.Storage
