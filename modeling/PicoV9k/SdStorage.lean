import PicoV9k.SdScan

/-!
# The SD card backend

Image files on a FAT volume. FatFS is outside the repository: `SdIo` holds its
answers during one call, in the order in which the backend asks. A file handle
remembers the path and the volume generation it was opened on, and the size of the file.
-/
namespace PicoV9k.Storage
open PicoV9k.Bus

/-- The FatFS results the backend tells apart. -/
inductive FResult
  | ok | diskErr | intErr | notReady | noFile | noPath | invalidName | invalidObject | exist | locked
  | other
  deriving DecidableEq, Repr

/-- The answers of the remount recovery: `f_mount`, and `f_open` with the size of each image. -/
structure RemountIo where
  mount : FResult
  reopen : ℕ → FResult × ℕ

/-- FatFS during one call: results, byte counts, sizes, and what a failed write left
in its sector. Attempt 3 of the sector calls is the one after a recovery. -/
structure SdIo where
  alloc : Bool
  initMount : FResult
  openDir : FResult
  dirEntries : List Path
  open1 : FResult × ℕ
  remount : RemountIo
  open2 : FResult × ℕ
  seek : ℕ → FResult
  read : ℕ → FResult × ℕ
  write : ℕ → FResult × ℕ × Sector
  sync : ℕ → FResult

/-- An open `FIL`. -/
structure FileHandle where
  path : Path
  generation : ℕ
  size : ℕ
  deriving DecidableEq, Repr

structure SdTarget where
  mounted : Bool
  readOnly : Bool
  imagePath : Path
  file : Option FileHandle
  capacitySectors : ℕ
  deriving DecidableEq, Repr

/-- `sd_state` and the file statics; `generation` counts the volume mounts and
`files` is the card's content, by path and sector. -/
structure SdState where
  initialized : Bool
  generation : ℕ
  files : Path → ℕ → Sector
  fileNames : List Path
  targets : ℕ → SdTarget
  consecutiveIoErrors : ℕ
  readFailCount : ℕ → ℕ
  writeFailCount : ℕ → ℕ
  syncFailCount : ℕ → ℕ

def SdTarget.initial : SdTarget := ⟨false, false, [], none, 0⟩

def SdState.initial (files : Path → ℕ → Sector) : SdState :=
  ⟨false, 0, files, [], fun _ => .initial, 0, fun _ => 0, fun _ => 0, fun _ => 0⟩

def sdRemountThreshold : ℕ := 5

def sdDisableThreshold : ℕ := 50

def SdState.setTarget (s : SdState) (t : ℕ) (x : SdTarget) : SdState :=
  { s with targets := Function.update s.targets t x }

def sdStorageDisableTarget (s : SdState) (t : ℕ) : SdState :=
  let x := s.targets t
  s.setTarget t
    { x with file := if x.mounted then none else x.file, mounted := false, capacitySectors := 0 }

/-- Reopening one target after a remount. -/
def SdTarget.reopen (x : SdTarget) (generation : ℕ) (answer : FResult × ℕ) : SdTarget :=
  if answer.1 = .ok then
    { x with file := some ⟨x.imagePath, generation, answer.2⟩, capacitySectors := answer.2 / 512 }
  else { x with mounted := false, capacitySectors := 0 }

/-- The targets a recovery closes and reopens. -/
def SdState.live (s : SdState) (t : ℕ) : Bool := decide (t < storageMaxTargets) && (s.targets t).mounted

/-- The unmount of the volume with every live image closed. -/
def SdState.closeAll (s : SdState) : SdState :=
  { s with
    generation := s.generation + 1
    targets := fun t => if s.live t then { s.targets t with file := none } else s.targets t }

/-- `sd_storage_try_remount`: when the volume does not come back, the targets keep
their mounted flag and capacity but no open file. -/
def sdStorageTryRemount (io : RemountIo) (s : SdState) : SdState × Bool :=
  let closed := s.closeAll
  if io.mount ≠ .ok then (closed, false)
  else
    ({ closed with
        targets := fun t =>
          if s.live t then (closed.targets t).reopen closed.generation (io.reopen t)
          else closed.targets t
        consecutiveIoErrors := 0 },
      (List.range storageMaxTargets).all fun t => !s.live t || (io.reopen t).1 == .ok)

def sdStorageUnmount (s : SdState) (t : ℕ) : SdState × Bool :=
  if !s.initialized || decide (storageMaxTargets ≤ t) then (s, false)
  else if !(s.targets t).mounted then (s, true)
  else
    (s.setTarget t { s.targets t with file := none, mounted := false, capacitySectors := 0 }, true)

/-- A missing file is a user error, not a dead filesystem. -/
def FResult.isMissing : FResult → Bool
  | .noFile | .noPath | .invalidName => true
  | _ => false

/-- The open of `sd_storage_mount`, with its one retry after a remount. -/
def sdOpenImage (io : SdIo) (s : SdState) : SdState × (FResult × ℕ) :=
  if io.open1.1 = .ok ∨ io.open1.1.isMissing then (s, io.open1)
  else
    match sdStorageTryRemount io.remount s with
    | (s, true) => (s, io.open2)
    | (s, false) => (s, io.open1)

def sdStorageMount (io : SdIo) (s : SdState) (t : ℕ) (image : Path) (readOnly : Bool) :
    SdState × Bool :=
  if !s.initialized then (s, false)
  else if storageMaxTargets ≤ t then (s, false)
  else
    let s := if (s.targets t).mounted then (sdStorageUnmount s t).1 else s
    let (s, answer) := sdOpenImage io s
    if answer.1 ≠ .ok then (s, false)
    else
      (s.setTarget t {
        mounted := true
        readOnly := readOnly
        imagePath := truncatePath image
        file := some ⟨image, s.generation, answer.2⟩
        capacitySectors := answer.2 / 512 }, true)

def sdStorageInit (io : SdIo) (s : SdState) : SdState × Bool :=
  if s.initialized then (s, true)
  else if !io.alloc then (s, false)
  else if io.initMount ≠ .ok then (s, false)
  else
    let names := if io.openDir = .ok then sortNames (scanNames io.dirEntries []) else []
    ({ s with
      initialized := true
      generation := s.generation + 1
      fileNames := names
      targets := fun _ => .initial }, true)

/-- A read attempt through `file`: a short read at the end of the file is padded with zeros. -/
def sdReadAttempt (io : SdIo) (s : SdState) (file : Option FileHandle) (lba attempt : ℕ) :
    Option Sector :=
  match file with
  | none => none
  | some f =>
    if io.seek attempt = .ok ∧ (io.read attempt).1 = .ok then
      some fun i => if i.val < (io.read attempt).2 then s.files f.path lba i else 0
    else none

def SdState.store (s : SdState) (path : Path) (lba : ℕ) (data : Sector) : SdState :=
  { s with files := Function.update s.files path (Function.update (s.files path) lba data) }

/-- A write attempt through `file`. -/
def sdWriteAttempt (io : SdIo) (s : SdState) (file : Option FileHandle) (lba : ℕ) (data : Sector)
    (attempt : ℕ) : SdState × Bool :=
  match file with
  | none => (s, false)
  | some f =>
    if io.seek attempt ≠ .ok then (s, false)
    else match io.write attempt with
      | (.ok, 512, _) => (s.store f.path lba data, true)
      | (_, _, junk) => (s.store f.path lba junk, false)

/-- The retry loop around a write, with `left` attempts to go. -/
def sdWriteRetry (io : SdIo) (file : Option FileHandle) (lba : ℕ) (data : Sector) :
    ℕ → SdState → SdState × Bool
  | 0, s => (s, false)
  | left + 1, s =>
    match sdWriteAttempt io s file lba data (3 - (left + 1)) with
    | (s, true) => (s, true)
    | (s, false) => sdWriteRetry io file lba data left s

/-- The recovery that the fifth consecutive error triggers: the state, and whether
`t` may be tried once more. -/
def sdRecover (io : SdIo) (s : SdState) (t : ℕ) : SdState × Bool :=
  if s.consecutiveIoErrors = sdRemountThreshold then
    match sdStorageTryRemount io.remount s with
    | (s, true) => (s, (s.targets t).mounted)
    | (s, false) => (s, false)
  else (s, false)

def SdState.disableAfter (s : SdState) (t failures : ℕ) : SdState :=
  if sdDisableThreshold ≤ failures then sdStorageDisableTarget s t else s

def sdStorageReadSector (io : SdIo) (s : SdState) (t lba : ℕ) : SdState × Option Sector :=
  if !s.initialized || decide (storageMaxTargets ≤ t) then (s, none)
  else if !(s.targets t).mounted then (s, none)
  else if (s.targets t).capacitySectors ≤ lba then (s, none)
  else match (List.range 3).findSome? (sdReadAttempt io s (s.targets t).file lba) with
    | some data =>
      ({ s with readFailCount := Function.update s.readFailCount t 0, consecutiveIoErrors := 0 },
        some data)
    | none =>
      let s := { s with
        readFailCount := Function.update s.readFailCount t (s.readFailCount t + 1)
        consecutiveIoErrors := s.consecutiveIoErrors + 1 }
      let (s, again) := sdRecover io s t
      -- unlike the attempts above, the one after a recovery accepts full sectors only
      match if again ∧ (io.read 3).2 = 512 then sdReadAttempt io s (s.targets t).file lba 3 else none with
      | some data =>
        ({ s with readFailCount := Function.update s.readFailCount t 0, consecutiveIoErrors := 0 },
          some data)
      | none => (s.disableAfter t (s.readFailCount t), none)

def sdStorageWriteSector (io : SdIo) (s : SdState) (t lba : ℕ) (data : Sector) : SdState × Bool :=
  if !s.initialized || decide (storageMaxTargets ≤ t) then (s, false)
  else if !(s.targets t).mounted then (s, false)
  else if (s.targets t).readOnly then (s, false)
  else if (s.targets t).capacitySectors ≤ lba then (s, false)
  else match sdWriteRetry io (s.targets t).file lba data 3 s with
    | (s, true) =>
      ({ s with writeFailCount := Function.update s.writeFailCount t 0, consecutiveIoErrors := 0 },
        true)
    | (s, false) =>
      let s := { s with
        writeFailCount := Function.update s.writeFailCount t (s.writeFailCount t + 1)
        consecutiveIoErrors := s.consecutiveIoErrors + 1 }
      let (s, again) := sdRecover io s t
      match if again then sdWriteAttempt io s (s.targets t).file lba data 3 else (s, false) with
      | (s, true) => ({ s with writeFailCount := Function.update s.writeFailCount t 0 }, true)
      | (s, false) => (s.disableAfter t (s.writeFailCount t), false)

def sdStorageSync (io : SdIo) (s : SdState) (t : ℕ) : SdState × Bool :=
  if !s.initialized || decide (storageMaxTargets ≤ t) then (s, false)
  else if !(s.targets t).mounted then (s, false)
  else if (List.range 3).any fun a => io.sync a == .ok then
    ({ s with syncFailCount := Function.update s.syncFailCount t 0, consecutiveIoErrors := 0 }, true)
  else
    let s := { s with
      syncFailCount := Function.update s.syncFailCount t (s.syncFailCount t + 1)
      consecutiveIoErrors := s.consecutiveIoErrors + 1 }
    let (s, again) := sdRecover io s t
    if again && io.sync 3 == .ok then
      ({ s with syncFailCount := Function.update s.syncFailCount t 0 }, true)
    else (s.disableAfter t (s.syncFailCount t), false)

def sdStorageGetCapacity (s : SdState) (t : ℕ) : ℕ :=
  if !s.initialized || decide (storageMaxTargets ≤ t) || !(s.targets t).mounted then 0
  else (s.targets t).capacitySectors

def sdStorageIsMounted (s : SdState) (t : ℕ) : Bool :=
  if !s.initialized || decide (storageMaxTargets ≤ t) then false else (s.targets t).mounted

end PicoV9k.Storage
