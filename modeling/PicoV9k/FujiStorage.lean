import PicoV9k.SdStorage

/-!
# The FujiNet backend and the two registered backends

Images live on the ESP32's server; a SASI target is served through the ESP slot
of the same number. The ESP is outside the repository: `FujiIo` holds its answers
during one call, and an unacknowledged request may or may not have been applied.
-/
namespace PicoV9k.Storage
open PicoV9k.Bus

/-- The end of one transaction. -/
inductive TxResult
  | acked
  | lost (applied : Bool)
  deriving DecidableEq, Repr

def TxResult.ok : TxResult → Bool
  | .acked => true
  | .lost _ => false

/-- Did the ESP apply the request? -/
def TxResult.applied : TxResult → Bool
  | .acked => true
  | .lost applied => applied

/-- The answers during one call: the link ping, `fuji_stat` with a size, and the
control and block transactions. -/
structure FujiIo where
  ping : Bool
  stat : Option ℕ
  unmountSlot : TxResult
  setFullpath : TxResult
  mountAll : TxResult
  read : TxResult
  write : TxResult

/-- A device slot of the ESP: the configured image with its access mode, and the one it serves. -/
structure EspSlot where
  configured : Option (Path × Bool)
  served : Option (Path × Bool)
  deriving DecidableEq, Repr

structure FujiTarget where
  mounted : Bool
  readOnly : Bool
  capacitySectors : ℕ
  deriving DecidableEq, Repr

/-- `s_targets`, and the ESP with the images of its server. -/
structure FujiState where
  targets : ℕ → FujiTarget
  slots : ℕ → EspSlot
  images : Path → ℕ → Sector

def FujiState.initial (slots : ℕ → EspSlot) (images : Path → ℕ → Sector) : FujiState :=
  ⟨fun _ => ⟨false, false, 0⟩, slots, images⟩

def fujiPathLen : ℕ := 256

def FujiState.setSlot (s : FujiState) (slot : ℕ) (x : EspSlot) : FujiState :=
  { s with slots := Function.update s.slots slot x }

def FujiState.setTarget (s : FujiState) (t : ℕ) (x : FujiTarget) : FujiState :=
  { s with targets := Function.update s.targets t x }

def fujiStorageInit (io : FujiIo) (s : FujiState) : FujiState × Bool := (s, io.ping)

def fujiUnmountSlot (io : FujiIo) (s : FujiState) (slot : ℕ) : FujiState × Bool :=
  (if io.unmountSlot.applied then s.setSlot slot { s.slots slot with served := none } else s,
    io.unmountSlot.ok)

def fujiSelectImage (io : FujiIo) (s : FujiState) (slot : ℕ) (name : Path) (readOnly : Bool) :
    FujiState × Bool :=
  if fujiPathLen ≤ name.length then (s, false)
  else
    match fujiUnmountSlot io s slot with
    | (s, false) => (s, false)
    | (s, true) =>
      (if io.setFullpath.applied then
          s.setSlot slot { s.slots slot with configured := some (name, readOnly) } else s,
        io.setFullpath.ok)

/-- Every configured slot becomes served. -/
def fujiMountAll (io : FujiIo) (s : FujiState) : FujiState × Bool :=
  (if io.mountAll.applied then
      { s with slots := fun slot =>
          match (s.slots slot).configured with
          | none => s.slots slot
          | some image => { s.slots slot with served := some image } }
    else s,
    io.mountAll.ok)

/-- `fuji_stat`: the size of a server file, or an error. -/
def fujiStat (io : FujiIo) (name : Path) : Option ℕ :=
  if fujiPathLen - 2 ≤ name.length then none else io.stat

/-- `fuji_storage_mount`: an empty path mounts what the ESP has configured. -/
def fujiStorageMount (io : FujiIo) (s : FujiState) (t : ℕ) (image : Path) (readOnly : Bool) :
    FujiState × Bool :=
  if storageMaxTargets ≤ t then (s, false)
  else
    let selected : FujiState × Option ℕ :=
      if image = [] then (s, some 0)
      else match fujiStat io image with
        | none => (s, none)
        | some size =>
          match fujiSelectImage io s t image readOnly with
          | (s, true) => (s, some (size / 512))
          | (s, false) => (s, none)
    match selected with
    | (s, none) => (s, false)
    | (s, some capacity) =>
      match fujiMountAll io s with
      | (s, false) => (s, false)
      | (s, true) => (s.setTarget t ⟨true, readOnly, capacity⟩, true)

def fujiStorageUnmount (io : FujiIo) (s : FujiState) (t : ℕ) : FujiState × Bool :=
  if storageMaxTargets ≤ t then (s, false)
  else if !(s.targets t).mounted then (s, true)
  else
    let (s, ok) := fujiUnmountSlot io s t
    (s.setTarget t { s.targets t with mounted := false, capacitySectors := 0 }, ok)

def fujiStorageReadSector (io : FujiIo) (s : FujiState) (t lba : ℕ) : FujiState × Option Sector :=
  if decide (storageMaxTargets ≤ t) || !(s.targets t).mounted then (s, none)
  else match (s.slots t).served, io.read with
    | some image, .acked => (s, some (s.images image.1 lba))
    | _, _ => (s, none)

def fujiStorageWriteSector (io : FujiIo) (s : FujiState) (t lba : ℕ) (data : Sector) :
    FujiState × Bool :=
  if decide (storageMaxTargets ≤ t) || !(s.targets t).mounted then (s, false)
  else if (s.targets t).readOnly then (s, false)
  else match (s.slots t).served with
    | none => (s, false)
    | some image =>
      (if io.write.applied then
          { s with images :=
              Function.update s.images image.1 (Function.update (s.images image.1) lba data) }
        else s,
        io.write.ok)

def fujiStorageGetCapacity (s : FujiState) (t : ℕ) : ℕ :=
  if decide (storageMaxTargets ≤ t) || !(s.targets t).mounted then 0
  else (s.targets t).capacitySectors

def fujiStorageIsMounted (s : FujiState) (t : ℕ) : Bool :=
  if storageMaxTargets ≤ t then false else (s.targets t).mounted

/-- The statics of both backends. -/
structure Media where
  sd : SdState
  fuji : FujiState

structure StorageIo where
  sd : SdIo
  fuji : FujiIo

def Media.onSd {α : Type} (m : Media) (r : SdState × α) : Media × α := ({ m with sd := r.1 }, r.2)

def Media.onFuji {α : Type} (m : Media) (r : FujiState × α) : Media × α := ({ m with fuji := r.1 }, r.2)

def sdOps : StorageOps StorageIo Media where
  init := fun io m => m.onSd (sdStorageInit io.sd m.sd)
  mount := fun io m t image readOnly => m.onSd (sdStorageMount io.sd m.sd t image readOnly)
  unmount := fun _ m t => m.onSd (sdStorageUnmount m.sd t)
  readSector := fun io m t lba => m.onSd (sdStorageReadSector io.sd m.sd t lba)
  writeSector := fun io m t lba data => m.onSd (sdStorageWriteSector io.sd m.sd t lba data)
  sync := fun io m t => m.onSd (sdStorageSync io.sd m.sd t)
  getCapacity := fun m t => sdStorageGetCapacity m.sd t
  isMounted := fun m t => sdStorageIsMounted m.sd t

def fujiOps : StorageOps StorageIo Media where
  init := fun io m => m.onFuji (fujiStorageInit io.fuji m.fuji)
  mount := fun io m t image readOnly => m.onFuji (fujiStorageMount io.fuji m.fuji t image readOnly)
  unmount := fun io m t => m.onFuji (fujiStorageUnmount io.fuji m.fuji t)
  readSector := fun io m t lba => m.onFuji (fujiStorageReadSector io.fuji m.fuji t lba)
  writeSector := fun io m t lba data => m.onFuji (fujiStorageWriteSector io.fuji m.fuji t lba data)
  -- writes are synchronous, there is nothing to flush
  sync := fun _ m _ => (m, true)
  getCapacity := fun m t => fujiStorageGetCapacity m.fuji t
  isMounted := fun m t => fujiStorageIsMounted m.fuji t

/-- What `fuji_storage_register` and `sd_storage_register` leave in `backend_ops`. -/
def cardRegistry : Registry StorageIo Media
  | .none => none
  | .fujinet => some fujiOps
  | .sdcard => some sdOps

end PicoV9k.Storage
