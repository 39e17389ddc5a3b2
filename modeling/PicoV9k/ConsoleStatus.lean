import PicoV9k.MountAtomicity
import PicoV9k.SdRefinement

/-!
# What `status` tells

The console asks core 1 for a row per target. The rows are put together from the routing
table, from the SD backend and from names that the console itself keeps for FujiNet; the
drives they stand for are those that the mounts and ejects so far have assigned.
-/
namespace PicoV9k.Storage
open PicoV9k.Bus PicoV9k.Runs

def conopNameMax : ℕ := 64

/-- `snprintf` of a name into a field of `CONOP_NAME_MAX` bytes. -/
def copyName (name : Path) : Path := name.take (conopNameMax - 1)

/-- The storage service and `s_fuji_name`. -/
structure ConsoleCard where
  routing : Routing Media
  fujiName : ℕ → Path

/-- `conop_status_row_t`. -/
structure StatusRow where
  backend : Backend
  mounted : Bool
  capacity : ℕ
  name : Path

def storageGetTargetBackend (st : Routing Media) (t : ℕ) : Backend :=
  if storageMaxTargets ≤ t then .none else st.targetBackend t

def sdStorageGetImagePath (s : SdState) (t : ℕ) : Option Path :=
  if !s.initialized || decide (storageMaxTargets ≤ t) then none
  else if (s.targets t).mounted then some (s.targets t).imagePath else none

/-- `do_mount`; FujiNet is asked first whether it is there. -/
def doMount (w : ConsoleCard) (backend : Backend) (t : ℕ) (image : Path) (ping : Bool) (io : CallIo) :
    ConsoleCard × Bool :=
  if backend = .fujinet ∧ ping = false then (w, false)
  else match storageMountOn cardRegistry io.init io.op w.routing backend t image false with
    | (st, false) => ({ w with routing := st }, false)
    | (st, true) =>
      ({ routing := st
         fujiName := if backend = .fujinet then Function.update w.fujiName t (copyName image) else w.fujiName },
        true)

/-- `do_eject`. -/
def doEject (w : ConsoleCard) (t : ℕ) (io : StorageIo) : ConsoleCard × Bool :=
  let r := storageUnmount cardRegistry io w.routing t
  ({ routing := r.1
     fujiName := if t < storageMaxTargets then Function.update w.fujiName t [] else w.fujiName }, r.2)

/-- One row of `do_status`. -/
def doStatus (w : ConsoleCard) (t : ℕ) : StatusRow where
  backend := storageGetTargetBackend w.routing t
  mounted := storageIsMounted cardRegistry w.routing t
  capacity := storageGetCapacity cardRegistry w.routing t
  name := match storageGetTargetBackend w.routing t with
    | .sdcard => copyName ((sdStorageGetImagePath w.routing.media.sd t).getD [])
    | .fujinet => copyName (w.fujiName t)
    | .none => []

/-- What core 1 does to the drives: the boot, the requests of the console, the I/O of the 8088. -/
inductive CardOp
  | bootInit (backend : Backend) (io : CallIo)
  | bootMount (target : ℕ) (image : Path) (io : CallIo)
  | mount (backend : Backend) (target : ℕ) (image : Path) (ping : Bool) (io : CallIo)
  | eject (target : ℕ) (io : StorageIo)
  | list (io : ListIo)
  | read (target lba : ℕ) (io : StorageIo)
  | write (target lba : ℕ) (data : Sector) (io : StorageIo)
  | sync (target : ℕ) (io : StorageIo)

/-- The card behind an operation, and whether it succeeds. -/
def cardStep (w : ConsoleCard) : CardOp → ConsoleCard × Bool
  | .bootInit b io =>
    let r := storageInit cardRegistry io.init w.routing b
    ({ w with routing := r.1 }, r.2)
  | .bootMount t image io =>
    let r := storageMount cardRegistry io.init io.op w.routing t image false
    ({ w with routing := r.1 }, r.2)
  | .mount b t image ping io => doMount w b t image ping io
  | .eject t io => doEject w t io
  | .list io =>
    let sd := (sdStorageListImages io w.routing.media.sd).1
    ({ w with routing := { w.routing with media := { w.routing.media with sd := sd } } }, true)
  | .read t lba io =>
    let r := storageReadSector cardRegistry io w.routing t lba
    ({ w with routing := r.1 }, r.2.isSome)
  | .write t lba data io =>
    let r := storageWriteSector cardRegistry io w.routing t lba data
    ({ w with routing := r.1 }, r.2)
  | .sync t io =>
    let r := storageSync cardRegistry io w.routing t
    ({ w with routing := r.1 }, r.2)

/-- The backend and image of each drive, by the last mount of it that succeeded. -/
abbrev Board := ℕ → Option (Backend × Path)

/-- A mount counts if it succeeds, an eject whatever it answers. -/
def Board.after (board : Board) (w : ConsoleCard) : CardOp → Board
  | .bootMount t image io =>
    if (cardStep w (.bootMount t image io)).2 then
      Function.update board t (some (w.routing.activeBackend, image))
    else board
  | .mount b t image ping io =>
    if (cardStep w (.mount b t image ping io)).2 then Function.update board t (some (b, image)) else board
  | .eject t _ => Function.update board t none
  | .bootInit _ _ | .list _ | .read _ _ _ | .write _ _ _ _ | .sync _ _ => board

def boardAfter (board : Board) : ConsoleCard → List CardOp → Board
  | _, [] => board
  | w, op :: ops => boardAfter (board.after w op) (cardStep w op).1 ops

def Board.backend (board : Board) (t : ℕ) : Backend :=
  match board t with
  | none => .none
  | some (b, _) => b

/-- Names fit the rows, and at boot FujiNet is only asked for what it has configured, before the
console has named anything. -/
def CardOp.Regular (w : ConsoleCard) : CardOp → Prop
  | .bootMount _ image _ => image.length < conopNameMax ∧
    (w.routing.activeBackend = .fujinet → image = [] ∧ ∀ t, w.fujiName t = [])
  | .mount _ _ image _ _ => image.length < conopNameMax
  | .bootInit _ _ | .eject _ _ | .list _ | .read _ _ _ | .write _ _ _ _ | .sync _ _ => True

def cardRun (w : ConsoleCard) (op : CardOp) : Option ConsoleCard := some (cardStep w op).1

/-- Targets may lose their image, and none gets another one. -/
def Fades (s s' : SdState) : Prop :=
  s'.Named ∧ ∀ t, s'.shelf.image t = s.shelf.image t ∨ s'.shelf.image t = none

variable {s s' s'' : SdState}

lemma Fades.refl (hn : s.Named) : Fades s s := ⟨hn, fun _ => .inl rfl⟩

lemma Fades.trans (h : Fades s s') (g : Fades s' s'') : Fades s s'' := by
  refine ⟨g.1, fun t => ?_⟩
  rcases g.2 t with hg | hg
  · rw [hg]
    exact h.2 t
  · exact .inr hg

lemma Calm.fades (h : Calm s s') (hn : s.Named) : Fades s s' := ⟨h.named hn, h.image⟩

/-- An image only comes to a target by a mount of it. -/
lemma Shelf.Step.image {d d' : Shelf} {a : Answer} (h : Shelf.Step d a d') (t : ℕ) :
    (d'.image t = d.image t ∨ d'.image t = none) ∨ ∃ p, a = .mounted t p ∧ d'.image t = some p := by
  have hdropped (e : Shelf) (gone : ℕ → Bool) :
      (e.dropped gone).image t = e.image t ∨ (e.dropped gone).image t = none := by
    cases hgone : gone t <;> simp [Shelf.dropped, hgone]
  cases h with
  | mounted gone u p =>
    rcases eq_or_ne t u with rfl | hne
    · exact .inr ⟨p, rfl, by simp [Shelf.insert]⟩
    · left
      simpa [Shelf.insert, hne] using hdropped d gone
  | unmounted u =>
    left
    rcases eq_or_ne t u with rfl | hne
    · exact .inr (by simp [Shelf.insert])
    · exact .inl (by simp [Shelf.insert, hne])
  | read himage gone lba => exact .inl (hdropped d gone)
  | written himage gone lba data => exact .inl (hdropped (d.stored _ lba data) gone)
  | torn himage gone lba left => exact .inl (hdropped (d.stored _ lba left) gone)
  | refused u lba => exact .inl (.inl rfl)
  | nothing gone => exact .inl (hdropped d gone)

lemma Shelf.Step.mounted_image {d d' : Shelf} {t : ℕ} {p : Path} (h : Shelf.Step d (.mounted t p) d') :
    d'.image t = some p ∧ ∀ u, u ≠ t → d'.image u = d.image u ∨ d'.image u = none := by
  refine ⟨?_, fun u hne => ?_⟩
  · cases h
    simp [Shelf.insert]
  · rcases h.image u with hfade | ⟨q, heq, -⟩
    · exact hfade
    · cases heq
      exact absurd rfl hne

lemma Shelved.fades {a : Answer} (h : Shelved s s' a) (ha : ∀ t p, a ≠ .mounted t p) : Fades s s' := by
  refine ⟨h.2, fun t => ?_⟩
  rcases h.1.image t with hfade | ⟨p, hmounted, -⟩
  · exact hfade
  · exact absurd hmounted (ha t p)

lemma sdStorageUnmount_fades (hn : s.Named) (t : ℕ) : Fades s (sdStorageUnmount s t).1 :=
  (sdStorageUnmount_calm s t).fades hn

lemma sdStorageWriteSector_fades (io : SdIo) (hn : s.Named) (t lba : ℕ) (data : Sector) :
    Fades s (sdStorageWriteSector io s t lba data).1 := by
  apply (sdStorageWriteSector_shelved io hn t lba data).fades
  intro u p
  unfold writeShown
  split <;> nofun

lemma opsForTarget_card {st : Routing Media} {t : ℕ} {ops : StorageOps StorageIo Media}
    (h : opsForTarget cardRegistry st t = some ops) : t < storageMaxTargets ∧
      (st.targetBackend t = .fujinet ∧ ops = fujiOps ∨ st.targetBackend t = .sdcard ∧ ops = sdOps) := by
  refine ⟨opsForTarget_lt h, ?_⟩
  have hops := opsForTarget_reg h
  cases hb : st.targetBackend t with
  | none =>
    rw [hb] at hops
    cases hops
  | fujinet =>
    rw [hb] at hops
    cases hops
    exact .inl ⟨rfl, rfl⟩
  | sdcard =>
    rw [hb] at hops
    cases hops
    exact .inr ⟨rfl, rfl⟩

lemma backendEnsureInited_fades {st : Routing Media} (hn : st.media.sd.Named) (io : StorageIo) (b : Backend) :
    Fades st.media.sd (backendEnsureInited cardRegistry io st b).1.media.sd := by
  unfold backendEnsureInited
  split
  · exact .refl hn
  split
  · exact .refl hn
  split
  · exact .refl hn
  next ops hops =>
    have hinit : Fades st.media.sd (ops.init io st.media).1.sd := by
      cases b with
      | none => cases hops
      | fujinet =>
        cases hops
        exact .refl hn
      | sdcard =>
        cases hops
        exact (sdStorageInit_calm io.sd st.media.sd).fades hn
    dsimp only
    split <;> exact hinit

/-- What a mount leaves: it fails and the routing is as before, or the drive is assigned, and an SD
drive holds its image. -/
inductive Mounted (st : Routing Media) (b : Backend) (t : ℕ) (image : Path) : Routing Media × Bool → Prop
  | failed {st' : Routing Media} (hroute : st'.targetBackend = st.targetBackend)
      (hfades : Fades st.media.sd st'.media.sd) : Mounted st b t image (st', false)
  | assigned {st' : Routing Media} (hroute : st'.targetBackend = Function.update st.targetBackend t b)
      (hb : b ≠ .none) (hnamed : st'.media.sd.Named)
      (hothers : ∀ u, u ≠ t ∨ b = .fujinet →
        st'.media.sd.shelf.image u = st.media.sd.shelf.image u ∨ st'.media.sd.shelf.image u = none)
      (himage : b = .sdcard → st'.media.sd.shelf.image t = some image) : Mounted st b t image (st', true)

lemma storageMountOn_mounted {st : Routing Media} (hn : st.media.sd.Named) (ioInit io : StorageIo) (b : Backend)
    (t : ℕ) {image : Path} (hshort : image.length < conopNameMax) (readOnly : Bool) :
    Mounted st b t image (storageMountOn cardRegistry ioInit io st b t image readOnly) := by
  have hinit := backendEnsureInited_fades hn ioInit b
  have hroute := backendEnsureInited_route ioInit st b
  unfold storageMountOn
  split
  · exact .failed rfl (.refl hn)
  dsimp only
  generalize backendEnsureInited cardRegistry ioInit st b = r at *
  obtain ⟨st₁, inited⟩ := r
  dsimp only at hinit hroute ⊢
  cases inited with
  | false => exact .failed hroute hinit
  | true =>
    rw [if_neg (by simp)]
    cases b with
    | none => exact .failed hroute hinit
    | fujinet =>
      dsimp only [cardRegistry]
      split
      · exact .failed hroute hinit
      · apply Mounted.assigned
        · exact congrArg (Function.update · t Backend.fujinet) hroute
        · exact nofun
        · exact hinit.1
        · exact fun u _ => hinit.2 u
        · exact nofun
    | sdcard =>
      have hmount := sdStorageMount_shelved io.sd hinit.1 t (Nat.le_of_lt_succ hshort) readOnly
      dsimp only [cardRegistry, sdOps, Media.onSd]
      split
      next hok =>
        rw [if_neg (by simpa using hok)] at hmount
        have hfades := hinit.trans (hmount.fades nofun)
        exact .failed hroute hfades
      next hok =>
        rw [if_pos (by simpa using hok)] at hmount
        have himage := Shelf.Step.mounted_image hmount.1
        apply Mounted.assigned
        · exact congrArg (Function.update · t Backend.sdcard) hroute
        · exact nofun
        · exact hmount.2
        · intro u hu
          have hne : u ≠ t := hu.resolve_right nofun
          rcases himage.2 u hne with hsame | hnone
          · rcases hinit.2 u with hbefore | hbefore
            · exact .inl (hsame.trans hbefore)
            · exact .inr (hsame.trans hbefore)
          · exact .inr hnone
        · exact fun _ => himage.1

/-- Sector I/O through the routing layer. -/
lemma storageRead_fades {st : Routing Media} (hn : st.media.sd.Named) (io : StorageIo) (t lba : ℕ) :
    Fades st.media.sd (storageReadSector cardRegistry io st t lba).1.media.sd := by
  unfold storageReadSector
  split
  · exact .refl hn
  next ops hops =>
    obtain ⟨-, ⟨-, rfl⟩ | ⟨-, rfl⟩⟩ := opsForTarget_card hops
    · exact .refl hn
    · exact (sdStorageReadSector_reads io.sd _ t lba).1.fades hn

lemma storageWrite_fades {st : Routing Media} (hn : st.media.sd.Named) (io : StorageIo) (t lba : ℕ)
    (data : Sector) : Fades st.media.sd (storageWriteSector cardRegistry io st t lba data).1.media.sd := by
  unfold storageWriteSector
  split
  · exact .refl hn
  next ops hops =>
    obtain ⟨-, ⟨-, rfl⟩ | ⟨-, rfl⟩⟩ := opsForTarget_card hops
    · exact .refl hn
    · exact sdStorageWriteSector_fades io.sd hn t lba data

lemma storageSync_fades {st : Routing Media} (hn : st.media.sd.Named) (io : StorageIo) (t : ℕ) :
    Fades st.media.sd (storageSync cardRegistry io st t).1.media.sd := by
  unfold storageSync
  split
  · exact .refl hn
  next ops hops =>
    obtain ⟨-, ⟨-, rfl⟩ | ⟨-, rfl⟩⟩ := opsForTarget_card hops
    · exact .refl hn
    · exact (sdStorageSync_calm io.sd st.media.sd t).fades hn

lemma storageUnmount_fades {st : Routing Media} (hn : st.media.sd.Named) (io : StorageIo) (t : ℕ) :
    Fades st.media.sd (storageUnmount cardRegistry io st t).1.media.sd := by
  unfold storageUnmount
  split
  · exact .refl hn
  next ops hops =>
    obtain ⟨-, ⟨-, rfl⟩ | ⟨-, rfl⟩⟩ := opsForTarget_card hops
    · exact .refl hn
    · exact sdStorageUnmount_fades hn t

structure Board.Shows (board : Board) (w : ConsoleCard) : Prop where
  backend : ∀ t < storageMaxTargets, w.routing.targetBackend t = board.backend t
  named : w.routing.media.sd.Named
  sd : ∀ t name, board t = some (.sdcard, name) →
    w.routing.media.sd.shelf.image t = some name ∨ w.routing.media.sd.shelf.image t = none
  fuji : ∀ t name, board t = some (.fujinet, name) → w.fujiName t = name
  short : ∀ t b name, board t = some (b, name) → name.length < conopNameMax

variable {board : Board} {w : ConsoleCard}

lemma copyName_short {name : Path} (h : name.length < conopNameMax) : copyName name = name :=
  List.take_of_length_le (Nat.le_sub_one_of_lt h)

/-- Nothing but SD images that get lost. -/
lemma Board.Shows.fades (h : board.Shows w) {st : Routing Media}
    (hroute : st.targetBackend = w.routing.targetBackend) (hfades : Fades w.routing.media.sd st.media.sd) :
    board.Shows { w with routing := st } := by
  refine ⟨fun t ht => ?_, hfades.1, fun t name hname => ?_, h.fuji, h.short⟩
  · rw [← h.backend t ht, ← hroute]
  · rcases hfades.2 t with hsame | hnone
    · dsimp only
      rw [hsame]
      exact h.sd t name hname
    · exact .inr hnone

/-- A mount that succeeds. -/
lemma Board.Shows.assign (h : board.Shows w) {st : Routing Media} {b : Backend} {t : ℕ} {image : Path}
    (hshort : image.length < conopNameMax) (hm : Mounted w.routing b t image (st, true)) {fujiName : ℕ → Path}
    (hfuji : b = .fujinet → fujiName t = image) (hothers : ∀ u, u ≠ t → fujiName u = w.fujiName u) :
    Board.Shows (Function.update board t (some (b, image))) ⟨st, fujiName⟩ := by
  cases hm with | assigned hroute hb hnamed hkeep himage =>
  refine ⟨fun u hu => ?_, hnamed, fun u name hname => ?_, fun u name hname => ?_, fun u b' name hname => ?_⟩ <;>
    rcases eq_or_ne u t with rfl | hne
  · simp [hroute, Board.backend]
  · simp only [hroute, Function.update_of_ne hne, Board.backend]
    exact h.backend u hu
  · simp only [Function.update_self, Option.some.injEq, Prod.mk.injEq] at hname
    obtain ⟨rfl, rfl⟩ := hname
    exact .inl (himage rfl)
  · rw [Function.update_of_ne hne] at hname
    rcases hkeep u (.inl hne) with hsame | hnone
    · dsimp only
      rw [hsame]
      exact h.sd u name hname
    · exact .inr hnone
  · simp only [Function.update_self, Option.some.injEq, Prod.mk.injEq] at hname
    obtain ⟨rfl, rfl⟩ := hname
    exact hfuji rfl
  · rw [Function.update_of_ne hne] at hname
    exact (hothers u hne).trans (h.fuji u name hname)
  · simp only [Function.update_self, Option.some.injEq, Prod.mk.injEq] at hname
    obtain ⟨rfl, rfl⟩ := hname
    exact hshort
  · rw [Function.update_of_ne hne] at hname
    exact h.short u b' name hname

/-- The routing of an unmounted target. -/
lemma storageUnmount_route (io : StorageIo) (st : Routing Media) {t : ℕ} (ht : t < storageMaxTargets) :
    (storageUnmount cardRegistry io st t).1.targetBackend = Function.update st.targetBackend t .none := by
  unfold storageUnmount
  split
  next hnone =>
    have hb : st.targetBackend t = .none := by
      unfold opsForTarget at hnone
      rw [if_neg (not_le.mpr ht)] at hnone
      cases hb : st.targetBackend t with
      | none => rfl
      | fujinet => simp [hb, cardRegistry] at hnone
      | sdcard => simp [hb, cardRegistry] at hnone
    rw [← hb, Function.update_eq_self]
  · rfl

lemma storageUnmount_beyond (io : StorageIo) (st : Routing Media) {t : ℕ} (ht : storageMaxTargets ≤ t) :
    (storageUnmount cardRegistry io st t).1 = st := by
  unfold storageUnmount opsForTarget
  rw [if_pos ht]

/-- An eject clears the drive, whatever the backend answers. -/
lemma Board.Shows.eject (h : board.Shows w) (t : ℕ) (io : StorageIo) :
    Board.Shows (Function.update board t none) (doEject w t io).1 := by
  have hfades := storageUnmount_fades h.named io t
  have hkept {u : ℕ} {b : Backend} {name : Path} (hname : Function.update board t none u = some (b, name)) :
      u ≠ t ∧ board u = some (b, name) := by
    rcases eq_or_ne u t with rfl | hne
    · simp at hname
    · exact ⟨hne, by simpa [hne] using hname⟩
  refine ⟨fun u hu => ?_, hfades.1, fun u name hname => ?_, fun u name hname => ?_,
    fun u b name hname => h.short u b name (hkept hname).2⟩
  · change (storageUnmount cardRegistry io w.routing t).1.targetBackend u = _
    rcases eq_or_ne u t with rfl | hne
    · rw [storageUnmount_route io _ hu]
      simp [Board.backend]
    · have hbackend := h.backend u hu
      rcases lt_or_ge t storageMaxTargets with ht | ht
      · rw [storageUnmount_route io _ ht]
        simpa [Board.backend, hne] using hbackend
      · rw [storageUnmount_beyond io _ ht]
        simpa [Board.backend, hne] using hbackend
  · have hold := h.sd u name (hkept hname).2
    rcases hfades.2 u with hsame | hnone
    · exact hold.imp hsame.trans hsame.trans
    · exact .inr hnone
  · obtain ⟨hne, hold⟩ := hkept hname
    have hname' := h.fuji u name hold
    unfold doEject
    dsimp only
    split
    · simpa [hne] using hname'
    · exact hname'

lemma Board.Shows.mounted (h : board.Shows w) {b : Backend} {t : ℕ} {image : Path}
    (hshort : image.length < conopNameMax) {r : Routing Media × Bool} (hm : Mounted w.routing b t image r)
    {fujiName : ℕ → Path} (hfuji : r.2 = true → b = .fujinet → fujiName t = image)
    (hothers : ∀ u, u ≠ t ∨ r.2 = false → fujiName u = w.fujiName u) :
    Board.Shows (if r.2 = true then Function.update board t (some (b, image)) else board) ⟨r.1, fujiName⟩ := by
  obtain ⟨st, ok⟩ := r
  cases ok with
  | false =>
    obtain rfl : fujiName = w.fujiName := funext fun u => hothers u (.inr rfl)
    cases hm with | failed hroute hfades =>
    exact h.fades hroute hfades
  | true => exact h.assign hshort hm (hfuji rfl) fun u hne => hothers u (.inl hne)

/-- A boot mount of FujiNet leaves the names empty, and there it has none. -/
lemma Board.Shows.bootMount (h : board.Shows w) {t : ℕ} {image : Path} {io : CallIo}
    (hop : (CardOp.bootMount t image io).Regular w) :
    (board.after w (.bootMount t image io)).Shows (cardStep w (.bootMount t image io)).1 := by
  have hm := storageMountOn_mounted h.named io.init io.op w.routing.activeBackend t hop.1 false
  refine h.mounted hop.1 hm (fun _ hb => ?_) fun _ _ => rfl
  obtain ⟨himage, hnone⟩ := hop.2 hb
  rw [himage, hnone t]

/-- The name is kept for FujiNet only, and only after a success. -/
lemma doMount_cases (w : ConsoleCard) (b : Backend) (t : ℕ) {image : Path} (ping : Bool) (io : CallIo)
    (hshort : image.length < conopNameMax) {r : Routing Media × Bool}
    (hr : storageMountOn cardRegistry io.init io.op w.routing b t image false = r) :
    doMount w b t image ping io = (w, false) ∨
      ∃ fujiName, doMount w b t image ping io = (⟨r.1, fujiName⟩, r.2) ∧
        (r.2 = true → b = .fujinet → fujiName t = image) ∧
        ∀ u, u ≠ t ∨ r.2 = false → fujiName u = w.fujiName u := by
  unfold doMount
  split
  · exact .inl rfl
  right
  rw [hr]
  obtain ⟨st, ok⟩ := r
  cases ok with
  | false => exact ⟨w.fujiName, rfl, nofun, fun _ _ => rfl⟩
  | true =>
    refine ⟨_, rfl, fun _ hb => ?_, fun u hu => ?_⟩
    · simp [hb, copyName_short hshort]
    · have hne : u ≠ t := hu.resolve_right nofun
      split
      · simp [hne]
      · rfl

lemma Board.Shows.mount (h : board.Shows w) {b : Backend} {t : ℕ} {image : Path} (ping : Bool) (io : CallIo)
    (hshort : image.length < conopNameMax) :
    (board.after w (.mount b t image ping io)).Shows (cardStep w (.mount b t image ping io)).1 := by
  have hm := storageMountOn_mounted h.named io.init io.op b t hshort false
  change Board.Shows (if (doMount w b t image ping io).2 = true then
    Function.update board t (some (b, image)) else board) (doMount w b t image ping io).1
  rcases doMount_cases w b t ping io hshort rfl with heq | ⟨fujiName, heq, hfuji, hothers⟩
  · rw [heq]
    exact h
  · rw [heq]
    exact h.mounted hshort hm hfuji hothers

lemma cardStep_shows (h : board.Shows w) {op : CardOp} (hop : op.Regular w) :
    (board.after w op).Shows (cardStep w op).1 := by
  cases op with
  | bootInit b io =>
    have hinit := backendEnsureInited_fades h.named io.init b
    have hroute := backendEnsureInited_route io.init w.routing b
    unfold cardStep storageInit
    dsimp only
    split
    · exact h.fades hroute hinit
    · exact h.fades hroute hinit
  | bootMount t image io => exact h.bootMount hop
  | mount b t image ping io => exact h.mount ping io hop
  | eject t io => exact h.eject t io
  | list io => exact h.fades rfl ((sdStorageListImages_calm io w.routing.media.sd).fades h.named)
  | read t lba io =>
    refine h.fades ?_ (storageRead_fades h.named io t lba)
    unfold storageReadSector
    split <;> rfl
  | write t lba data io =>
    refine h.fades ?_ (storageWrite_fades h.named io t lba data)
    unfold storageWriteSector
    split <;> rfl
  | sync t io =>
    refine h.fades ?_ (storageSync_fades h.named io t)
    unfold storageSync
    split <;> rfl

lemma cardRun_shows {ops : List CardOp} {w' : ConsoleCard}
    (hrun : Guarded cardRun (fun w op => op.Regular w) w ops w') (h : board.Shows w) :
    (boardAfter board w ops).Shows w' := by
  induction hrun generalizing board with
  | nil w => exact h
  | cons hop hs _ ih =>
    cases hs
    exact ih (cardStep_shows h hop)

def ConsoleCard.powerUp (files : Path → ℕ → Sector) (slots : ℕ → EspSlot) (images : Path → ℕ → Sector) :
    ConsoleCard := ⟨Storage.powerUp files slots images, fun _ => []⟩

lemma powerUp_shows (files : Path → ℕ → Sector) (slots : ℕ → EspSlot) (images : Path → ℕ → Sector) :
    Board.Shows (fun _ => none) (.powerUp files slots images) :=
  ⟨fun _ _ => rfl, fun _ => nofun, fun _ _ => nofun, fun _ _ => nofun, fun _ _ _ => nofun⟩

/-- The row of a mounted SD drive names the image that the drive holds. -/
lemma doStatus_sd {t : ℕ} (ht : t < storageMaxTargets) (hb : w.routing.targetBackend t = .sdcard)
    (hm : storageIsMounted cardRegistry w.routing t = true) :
    w.routing.media.sd.shelf.image t = some (w.routing.media.sd.targets t).imagePath ∧
      (doStatus w t).name = copyName (w.routing.media.sd.targets t).imagePath := by
  have hready : w.routing.media.sd.initialized = true ∧ (w.routing.media.sd.targets t).mounted = true := by
    simp [storageIsMounted, opsForTarget, not_le.mpr ht, hb, cardRegistry, sdOps, sdStorageIsMounted] at hm
    exact hm
  refine ⟨if_pos hready.2, ?_⟩
  simp [doStatus, storageGetTargetBackend, not_le.mpr ht, hb, sdStorageGetImagePath, hready]

lemma Board.Shows.row (h : board.Shows w) {t : ℕ} (ht : t < storageMaxTargets)
    (hm : (doStatus w t).mounted = true) :
    board t = some ((doStatus w t).backend, (doStatus w t).name) := by
  have hbackend : (doStatus w t).backend = w.routing.targetBackend t := if_neg (not_le.mpr ht)
  have hassigned := h.backend t ht
  rw [hbackend]
  unfold Board.backend at hassigned
  split at hassigned
  next hnone =>
    simp [doStatus, storageIsMounted, opsForTarget, not_le.mpr ht, hassigned] at hm
  next b name hname =>
    rw [hname, hassigned]
    have hshort := h.short t b name hname
    cases b with
    | none => simp [doStatus, storageIsMounted, opsForTarget, not_le.mpr ht, hassigned] at hm
    | fujinet =>
      have hkept := h.fuji t name hname
      simp [doStatus, storageGetTargetBackend, not_le.mpr ht, hassigned, hkept, copyName_short hshort]
    | sdcard =>
      obtain ⟨himage, hrow⟩ := doStatus_sd ht hassigned hm
      have hsd := h.sd t name hname
      rw [himage] at hsd
      have hpath : (w.routing.media.sd.targets t).imagePath = name := by simpa using hsd
      rw [hrow, hpath, copyName_short hshort]

lemma sdStorageReadSector_mounted {io : SdIo} {t lba : ℕ} {data : Sector}
    (h : (sdStorageReadSector io s t lba).2 = some data) : sdStorageIsMounted s t = true := by
  unfold sdStorageReadSector at h
  split at h
  · cases h
  next hready =>
    split at h
    · cases h
    next hmounted =>
      unfold sdStorageIsMounted
      rw [if_neg hready]
      simpa using hmounted

/-- A sector of an SD drive is the named image's. -/
lemma Board.Shows.reads (h : board.Shows w) {t lba : ℕ} (ht : t < storageMaxTargets) {io : StorageIo}
    (hwhole : io.sd.ReadsWhole) (hb : (doStatus w t).backend = .sdcard) {data : Sector}
    (hread : (storageReadSector cardRegistry io w.routing t lba).2 = some data) :
    data = w.routing.media.sd.files (doStatus w t).name lba := by
  have hbackend : w.routing.targetBackend t = .sdcard := (if_neg (not_le.mpr ht)).symm.trans hb
  have hops : opsForTarget cardRegistry w.routing t = some sdOps := by
    simp [opsForTarget, not_le.mpr ht, hbackend, cardRegistry]
  have hsd : (sdStorageReadSector io.sd w.routing.media.sd t lba).2 = some data := by
    unfold storageReadSector at hread
    rw [hops] at hread
    exact hread
  have hmounted : storageIsMounted cardRegistry w.routing t = true := by
    unfold storageIsMounted
    rw [hops]
    exact sdStorageReadSector_mounted hsd
  have hrow := h.row ht hmounted
  rw [hb] at hrow
  have himage := h.sd t _ hrow
  rw [(doStatus_sd ht hbackend hmounted).1] at himage
  have hpath : (w.routing.media.sd.targets t).imagePath = (doStatus w t).name := by simpa using himage
  rw [← hpath]
  exact ((sdStorageReadSector_reads io.sd _ t lba).2 data hsd h.named hwhole).2

/-- The rows tell which drives the boot and the console have assigned, whatever failed in between: the
backend always, the name while the drive is mounted; and what is read from an SD drive is read from the
image its row names. -/
theorem status_tells_board {files images : Path → ℕ → Sector} {slots : ℕ → EspSlot} {ops : List CardOp}
    (h : Guarded cardRun (fun w op => op.Regular w) (.powerUp files slots images) ops w) {t : ℕ}
    (ht : t < storageMaxTargets) :
    (doStatus w t).backend = (boardAfter (fun _ => none) (.powerUp files slots images) ops).backend t ∧
    ((doStatus w t).mounted = true → boardAfter (fun _ => none) (.powerUp files slots images) ops t =
      some ((doStatus w t).backend, (doStatus w t).name)) ∧
    ∀ io lba data, io.sd.ReadsWhole → (doStatus w t).backend = .sdcard →
      (storageReadSector cardRegistry io w.routing t lba).2 = some data →
      data = w.routing.media.sd.files (doStatus w t).name lba := by
  have hshows := cardRun_shows h (powerUp_shows files slots images)
  have hbackend : (doStatus w t).backend = w.routing.targetBackend t := if_neg (not_le.mpr ht)
  exact ⟨hbackend.trans (hshows.backend t ht), hshows.row ht,
    fun io lba data hwhole hb hread => hshows.reads ht hwhole hb hread⟩

/-- A card without SD boots from FujiNet; the console then mounts an SD image and a FujiNet one over it,
and the last mount of an SD image fails. -/
def exchangedDrive : List CardOp :=
  [.bootInit .fujinet readyIo, .bootMount 0 [] readyIo, .mount .sdcard 0 [97] true readyIo,
    .mount .fujinet 0 [98] true readyIo, .mount .sdcard 0 [99] true ⟨readyIo.init, missingIo⟩]

def cardAfter (ops : List CardOp) : ConsoleCard :=
  ops.foldl (fun w op => (cardStep w op).1) (.powerUp (fun _ _ _ => 0) (fun _ => ⟨none, none⟩) fun _ _ _ => 0)

theorem status_tells_board_exchanged :
    boardAfter (fun _ => none) (.powerUp (fun _ _ _ => 0) (fun _ => ⟨none, none⟩) fun _ _ _ => 0)
      exchangedDrive 0 = some (.fujinet, [98]) := by
  have hrun : Guarded cardRun (fun w op => op.Regular w)
      (.powerUp (fun _ _ _ => 0) (fun _ => ⟨none, none⟩) fun _ _ _ => 0) exchangedDrive
      (cardAfter exchangedDrive) := by
    refine .of_total (fun _ _ => rfl) fun n hn => ?_
    have hn : n < 5 := hn
    interval_cases n
    · trivial
    · exact ⟨Nat.le_of_ble_eq_true rfl, fun _ => ⟨rfl, fun _ => rfl⟩⟩
    all_goals exact Nat.le_of_ble_eq_true rfl
  have hrow : (doStatus (cardAfter exchangedDrive) 0).mounted = true := rfl
  exact (status_tells_board hrun (Nat.le_of_ble_eq_true rfl)).2.1 hrow

end PicoV9k.Storage
