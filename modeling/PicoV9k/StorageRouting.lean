import PicoV9k.DmaRegisters

/-!
# Storage routing

Every SASI target records the backend that mounted it, and each operation is
dispatched on that record. A backend is a table of operations over the state of
all media; `Io` carries what the outside world answers during one call.
-/
namespace PicoV9k.Storage
open PicoV9k.Bus

/-- One 512-byte sector. -/
abbrev Sector := Fin 512 → Byte

def storageMaxTargets : ℕ := 8

inductive Backend
  | none | fujinet | sdcard
  deriving DecidableEq, Repr

/-- An image path, as the bytes of the C string. -/
abbrev Path := List Byte

/-- `storage_ops_t`. A failing `readSector` delivers no data. -/
structure StorageOps (Io σ : Type) where
  init : Io → σ → σ × Bool
  mount : Io → σ → ℕ → Path → Bool → σ × Bool
  unmount : Io → σ → ℕ → σ × Bool
  readSector : Io → σ → ℕ → ℕ → σ × Option Sector
  writeSector : Io → σ → ℕ → ℕ → Sector → σ × Bool
  sync : Io → σ → ℕ → σ × Bool
  getCapacity : σ → ℕ → ℕ
  isMounted : σ → ℕ → Bool

/-- The statics of the routing layer, over the state `media` of the backends. -/
structure Routing (σ : Type) where
  backendInited : Backend → Bool
  activeBackend : Backend
  targetBackend : ℕ → Backend
  media : σ

/-- `backend_ops`: which backends are registered, and with which table. -/
abbrev Registry (Io σ : Type) := Backend → Option (StorageOps Io σ)

variable {Io σ : Type} (reg : Registry Io σ)

/-- The statics at power-up. -/
def Routing.initial (media : σ) : Routing σ := ⟨fun _ => false, .none, fun _ => .none, media⟩

def backendEnsureInited (io : Io) (st : Routing σ) (backend : Backend) : Routing σ × Bool :=
  if backend = .none then (st, false)
  else if st.backendInited backend then (st, true)
  else match reg backend with
    | none => (st, false)
    | some ops =>
      let (media, ok) := ops.init io st.media
      if ok then
        ({ st with media := media, backendInited := Function.update st.backendInited backend true },
          true)
      else ({ st with media := media }, false)

def storageInit (io : Io) (st : Routing σ) (backend : Backend) : Routing σ × Bool :=
  let (st, ok) := backendEnsureInited reg io st backend
  if ok then ({ st with activeBackend := backend }, true) else (st, false)

def opsForTarget (st : Routing σ) (target : ℕ) : Option (StorageOps Io σ) :=
  if storageMaxTargets ≤ target then none
  else if st.targetBackend target = .none then none
  else reg (st.targetBackend target)

/-- The outcomes of the lazy `init` and of the backend's `mount` are separate. -/
def storageMountOn (ioInit io : Io) (st : Routing σ) (backend : Backend) (target : ℕ) (image : Path)
    (readOnly : Bool) : Routing σ × Bool :=
  if storageMaxTargets ≤ target then (st, false)
  else
    let (st, inited) := backendEnsureInited reg ioInit st backend
    if !inited then (st, false)
    else match reg backend with
      | none => (st, false)
      | some ops =>
        let (media, ok) := ops.mount io st.media target image readOnly
        if !ok then ({ st with media := media }, false)
        else
          ({ st with media := media, targetBackend := Function.update st.targetBackend target backend },
            true)

def storageMount (ioInit io : Io) (st : Routing σ) (target : ℕ) (image : Path) (readOnly : Bool) :
    Routing σ × Bool :=
  storageMountOn reg ioInit io st st.activeBackend target image readOnly

def storageUnmount (io : Io) (st : Routing σ) (target : ℕ) : Routing σ × Bool :=
  match opsForTarget reg st target with
  | none => (st, false)
  | some ops =>
    let (media, ok) := ops.unmount io st.media target
    ({ st with media := media, targetBackend := Function.update st.targetBackend target .none }, ok)

def storageReadSector (io : Io) (st : Routing σ) (target lba : ℕ) : Routing σ × Option Sector :=
  match opsForTarget reg st target with
  | none => (st, none)
  | some ops =>
    let (media, data) := ops.readSector io st.media target lba
    ({ st with media := media }, data)

def storageWriteSector (io : Io) (st : Routing σ) (target lba : ℕ) (data : Sector) :
    Routing σ × Bool :=
  match opsForTarget reg st target with
  | none => (st, false)
  | some ops =>
    let (media, ok) := ops.writeSector io st.media target lba data
    ({ st with media := media }, ok)

def storageSync (io : Io) (st : Routing σ) (target : ℕ) : Routing σ × Bool :=
  match opsForTarget reg st target with
  | none => (st, false)
  | some ops =>
    let (media, ok) := ops.sync io st.media target
    ({ st with media := media }, ok)

def storageGetCapacity (st : Routing σ) (target : ℕ) : ℕ :=
  match opsForTarget reg st target with
  | none => 0
  | some ops => ops.getCapacity st.media target

def storageIsMounted (st : Routing σ) (target : ℕ) : Bool :=
  match opsForTarget reg st target with
  | none => false
  | some ops => ops.isMounted st.media target

/-- The images of the media: which one stands behind each target of each backend, and what every
image holds, in the states that are sound. -/
structure ImageTable (σ : Type) where
  Image : Type
  image : σ → Backend → ℕ → Image
  disk : σ → Image → ℕ → Sector
  Sound : σ → Prop

namespace ImageTable

variable (V : ImageTable σ)

/-- The image that `target` is routed to. -/
def behind (st : Routing σ) (target : ℕ) : V.Image := V.image st.media (st.targetBackend target) target

/-- Sector `lba` of that image. -/
def sector (st : Routing σ) (target lba : ℕ) : Sector := V.disk st.media (V.behind st target) lba

/-- What happened shows in no image. -/
structure Kept (m m' : σ) : Prop where
  image : V.image m' = V.image m
  disk : V.disk m' = V.disk m
  sound : V.Sound m → V.Sound m'

/-- At most one sector of one image has changed, and it holds the data if the call succeeded. -/
structure Stored (i : V.Image) (lba : ℕ) (data : Sector) (m : σ) (r : σ × Bool) : Prop where
  image : V.image r.1 = V.image m
  others : ∀ i' lba', (i', lba') ≠ (i, lba) → V.disk r.1 i' lba' = V.disk m i' lba'
  stored : r.2 = true → V.disk r.1 i lba = data
  sound : V.Sound r.1

variable {V}

lemma Kept.refl (m : σ) : V.Kept m m := ⟨rfl, rfl, id⟩

lemma Kept.trans {m m' m'' : σ} (h : V.Kept m m') (g : V.Kept m' m'') : V.Kept m m'' :=
  ⟨g.image.trans h.image, g.disk.trans h.disk, fun hs => g.sound (h.sound hs)⟩

/-- As long as the routing stays, so does what a target shows. -/
lemma Kept.sector {st st' : Routing σ} (h : V.Kept st.media st'.media)
    (hroute : st'.targetBackend = st.targetBackend) : V.sector st' = V.sector st := by
  funext target lba
  unfold ImageTable.sector behind
  rw [h.disk, h.image, hroute]

/-- A call that is refused stores nothing. -/
lemma Stored.refused (i : V.Image) (lba : ℕ) (data : Sector) {m : σ} (h : V.Sound m) :
    V.Stored i lba data m (m, false) := ⟨rfl, fun _ _ _ => rfl, nofun, h⟩

lemma Stored.behind {st st' : Routing σ} {i : V.Image} {lba : ℕ} {data : Sector} {ok : Bool}
    (h : V.Stored i lba data st.media (st'.media, ok)) (hroute : st'.targetBackend = st.targetBackend) :
    V.behind st' = V.behind st := by
  funext target
  unfold ImageTable.behind
  rw [hroute]
  exact congrFun (congrFun h.image _) target

end ImageTable

/-- What reading shows of the images: no read changes one, and from a sound state, with honest
answers from outside, it delivers the sector of the image behind its target. -/
structure ReadView (reg : Registry Io σ) extends ImageTable σ where
  Honest : Io → Prop
  read_kept : ∀ {b ops}, reg b = some ops → ∀ io m t lba, toImageTable.Kept m (ops.readSector io m t lba).1
  read_data : ∀ {b ops}, reg b = some ops → ∀ io m t lba data, Honest io → Sound m →
    (ops.readSector io m t lba).2 = some data → data = disk m (image m b t) lba

/-- A view of all states and all answers. -/
structure MediaView (reg : Registry Io σ) extends ReadView reg where
  sound : ∀ m, Sound m
  honest : ∀ io, Honest io

/-- What writing does to the images as well: a write, successful or not, reaches its own sector of
the image behind its target, and a sync none. -/
structure WritableView (reg : Registry Io σ) extends ReadView reg where
  write_stored : ∀ {b ops}, reg b = some ops → ∀ io m t lba data, Sound m →
    toImageTable.Stored (image m b t) lba data m (ops.writeSector io m t lba data)
  write_mounted : ∀ {b ops}, reg b = some ops → ∀ io m t lba data,
    ops.isMounted m t = true → (ops.writeSector io m t lba data).2 = true →
      ops.isMounted (ops.writeSector io m t lba data).1 t = true
  sync_kept : ∀ {b ops}, reg b = some ops → ∀ io m t, toImageTable.Kept m (ops.sync io m t).1

variable {reg}

lemma opsForTarget_reg {st : Routing σ} {target : ℕ} {ops : StorageOps Io σ}
    (h : opsForTarget reg st target = some ops) : reg (st.targetBackend target) = some ops := by
  unfold opsForTarget at h
  split at h
  · cases h
  · split at h
    · cases h
    · exact h

section Reading
variable (M : ReadView reg) (io : Io) (st : Routing σ) (target lba : ℕ)

/-- Reading changes neither the routing nor any image. -/
lemma storageReadSector_kept :
    (storageReadSector reg io st target lba).1.targetBackend = st.targetBackend ∧
      M.Kept st.media (storageReadSector reg io st target lba).1.media := by
  unfold storageReadSector
  cases h : opsForTarget reg st target with
  | none => exact ⟨rfl, .refl _⟩
  | some ops => exact ⟨rfl, M.read_kept (opsForTarget_reg h) _ _ _ _⟩

variable {M io st target lba} in
/-- A successful read delivers the routed sector. -/
lemma storageReadSector_data {data : Sector} (hio : M.Honest io) (hs : M.Sound st.media)
    (h : (storageReadSector reg io st target lba).2 = some data) :
    data = M.sector st target lba := by
  unfold storageReadSector at h
  cases hops : opsForTarget reg st target with
  | none => simp [hops] at h
  | some ops =>
    rw [hops] at h
    exact M.read_data (opsForTarget_reg hops) _ _ _ _ _ hio hs h

end Reading

section Writing
variable (M : WritableView reg) (io : Io) (st : Routing σ) (target lba : ℕ)

lemma storageWriteSector_routing (reg : Registry Io σ) (io : Io) (st : Routing σ) (target lba : ℕ)
    (data : Sector) :
    (storageWriteSector reg io st target lba data).1.targetBackend = st.targetBackend := by
  unfold storageWriteSector
  cases opsForTarget reg st target <;> rfl

/-- A write, successful or not, leaves every other sector of every image alone. -/
lemma storageWriteSector_stored (data : Sector) (hs : M.Sound st.media) :
    M.Stored (M.behind st target) lba data st.media
      ((storageWriteSector reg io st target lba data).1.media, (storageWriteSector reg io st target lba data).2) := by
  unfold storageWriteSector
  cases h : opsForTarget reg st target with
  | none => exact .refused _ lba data hs
  | some ops => exact M.write_stored (opsForTarget_reg h) _ _ _ _ _ hs

include M in
/-- A target that was just written successfully is still mounted. -/
lemma storageWriteSector_mounted (data : Sector) (hm : storageIsMounted reg st target = true)
    (h : (storageWriteSector reg io st target lba data).2 = true) :
    storageIsMounted reg (storageWriteSector reg io st target lba data).1 target = true := by
  unfold storageWriteSector storageIsMounted at *
  cases hops : opsForTarget reg st target with
  | none => simp [hops] at h
  | some ops =>
    rw [hops] at h hm
    have hops' (m : σ) : opsForTarget reg { st with media := m } target = some ops := hops
    simp only [hops']
    exact M.write_mounted (opsForTarget_reg hops) _ _ _ _ _ hm h

lemma storageSync_kept :
    (storageSync reg io st target).1.targetBackend = st.targetBackend ∧
      M.Kept st.media (storageSync reg io st target).1.media := by
  unfold storageSync
  cases h : opsForTarget reg st target with
  | none => exact ⟨rfl, .refl _⟩
  | some ops => exact ⟨rfl, M.sync_kept (opsForTarget_reg h) _ _ _⟩

end Writing

/-- The simplest backend: a disk in memory, on which every target is mounted and every call succeeds. -/
def memoryOps : StorageOps Unit (ℕ → ℕ → Sector) where
  init := fun _ m => (m, true)
  mount := fun _ m _ _ _ => (m, true)
  unmount := fun _ m _ => (m, true)
  readSector := fun _ m t lba => (m, some (m t lba))
  writeSector := fun _ m t lba data => (Function.update m t (Function.update (m t) lba data), true)
  sync := fun _ m _ => (m, true)
  getCapacity := fun _ _ => 2 ^ 21
  isMounted := fun _ _ => true

def memoryRegistry : Registry Unit (ℕ → ℕ → Sector)
  | .sdcard => some memoryOps
  | _ => none

/-- Each target of the memory disk is an image of its own. -/
def memoryView : MediaView memoryRegistry where
  Image := ℕ
  image := fun _ _ t => t
  disk := fun m t lba => m t lba
  Sound := fun _ => True
  Honest := fun _ => True
  read_kept := by
    intro b ops hops io m t lba
    cases b with
    | none | fujinet => cases hops
    | sdcard =>
      cases hops
      exact .refl m
  read_data := by
    intro b ops hops io m t lba data _ _ h
    cases b with
    | none | fujinet => cases hops
    | sdcard =>
      cases hops
      exact (Option.some.inj h).symm
  sound := fun _ => trivial
  honest := fun _ => trivial

end PicoV9k.Storage
