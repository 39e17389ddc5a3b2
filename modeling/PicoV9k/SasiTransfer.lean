import PicoV9k.SasiController

/-!
# READ(6) and WRITE(6)

A transfer advances by one step for each sector boundary: the boundary either
sees a pending RESET and abandons the command, moves one sector, or completes the
command. `handleReadSectors` and `handleWriteSectors` run the steps to the end.
-/
namespace PicoV9k.Sasi
open PicoV9k.Bus PicoV9k.Storage

inductive Dir
  | read | write
  deriving DecidableEq, Repr

/-- The locals of the sector loops. -/
structure Transfer where
  dir : Dir
  target : ℕ
  sector : ℕ
  blocks : ℕ
  i : ℕ
  localDmaAddr : ℕ
  transferOk : Bool
  anyStorageWrites : Bool
  deriving DecidableEq, Repr

/-- What storage and the DMA engine answer while one sector is processed. -/
structure SectorIo (Io : Type) where
  storage : Io
  dma : ℕ → DmaOutcome

variable {Io σ : Type} (reg : Registry Io σ)

def cdbByte (cmd : List Byte) (i : ℕ) : Byte := cmd.getD i 0

def cdbLba (cmd : List Byte) : ℕ :=
  (cdbByte cmd 1).toNat % 32 * 2 ^ 16 + (cdbByte cmd 2).toNat * 2 ^ 8 + (cdbByte cmd 3).toNat

/-- A zero count means 256 blocks. -/
def cdbBlocks (cmd : List Byte) : ℕ := if cdbByte cmd 4 = 0 then 256 else (cdbByte cmd 4).toNat

lemma cdbBlocks_le (cmd : List Byte) : cdbBlocks cmd ≤ 256 := by
  unfold cdbBlocks
  split
  · exact le_rfl
  · exact (BitVec.isLt _).le

lemma cdbBlocks_pos (cmd : List Byte) : 0 < cdbBlocks cmd := by
  unfold cdbBlocks
  split
  · decide
  next h => exact Nat.pos_of_ne_zero fun h0 => h (BitVec.eq_of_toNat_eq h0)

def Card.target (c : Card σ) : ℕ := (c.dma.selectedTarget &&& 0x07).toNat

/-- The common prologue of both handlers, up to the first sector boundary. -/
def beginTransfer (dir : Dir) (c : Card σ) (cmd : List Byte) : Card σ × Transfer :=
  let sector := cdbLba cmd
  let blocks := cdbBlocks cmd
  let c := { c with dma := { c.dma with logicalBlock := sector, blockCount := blocks } }
  let c := sasiApplyCommandDelay c
  let c := c.sasiBusCtrlSet (commandBusy c.dma.busCtrl)
  (c, {
    dir := dir
    target := c.target
    sector := sector
    blocks := blocks
    i := 0
    localDmaAddr := c.dma.dmaAddress.full % ramSize
    transferOk := true
    anyStorageWrites := false })

/-- `read_sector_from_disk`; an unmounted target fails at once. -/
def readSectorFromDisk (io : Io) (st : Routing σ) (target lba : ℕ) : Routing σ × Option Sector :=
  if storageIsMounted reg st target then storageReadSector reg io st target lba else (st, none)

/-- The sector counts as done: the address advances and, if more remain, the
bus returns to COMMAND busy. -/
def advanceSector (c : Card σ) (t : Transfer) : Card σ × Transfer :=
  let t := { t with localDmaAddr := (t.localDmaAddr + 512) % ramSize }
  let c := if t.i + 1 < t.blocks then c.sasiBusCtrlSet (commandBusy c.dma.busCtrl) else c
  (c, { t with i := t.i + 1 })

@[simp] lemma advanceSector_ram (c : Card σ) (t : Transfer) : (advanceSector c t).1.ram = c.ram := by
  unfold advanceSector
  dsimp only
  split <;> rfl

@[simp] lemma advanceSector_storage (c : Card σ) (t : Transfer) :
    (advanceSector c t).1.storage = c.storage := by
  unfold advanceSector
  dsimp only
  split <;> rfl

@[simp] lemma advanceSector_target (c : Card σ) (t : Transfer) :
    (advanceSector c t).1.target = c.target := by
  unfold advanceSector
  dsimp only
  split <;> rfl

@[simp] lemma advanceSector_transfer (c : Card σ) (t : Transfer) : (advanceSector c t).2 =
    { t with i := t.i + 1, localDmaAddr := (t.localDmaAddr + 512) % ramSize } := rfl

def sectorBytes (s : Sector) : ℕ → Byte := fun i => if h : i < 512 then s ⟨i, h⟩ else 0

/-- One pass of the loop body of `handle_read_sectors`. -/
def readSectorStep (io : SectorIo Io) (c : Card σ) (t : Transfer) : Card σ × Transfer :=
  let c := c.record (.sector (t.sector + t.i))
  match readSectorFromDisk reg io.storage c.storage c.target (t.sector + t.i) with
  | (st, none) => ({ c with storage := st }, { t with transferOk := false })
  | (st, some data) =>
    let c := { c with storage := st }
    let c := c.sasiBusCtrlSet (dataInBusy c.dma.busCtrl)
    match dmaWriteRetry io.dma t.localDmaAddr (sectorBytes data) sasiDmaSectorRetries c.ram with
    | (ram, false) => ({ c with ram := ram }, { t with transferOk := false })
    | (ram, true) => advanceSector { c with ram := ram } t

/-- One pass of the loop body of `handle_write_sectors`. -/
def writeSectorStep (io : SectorIo Io) (c : Card σ) (t : Transfer) : Card σ × Transfer :=
  let c := c.record (.sector (t.sector + t.i))
  let c := c.sasiBusCtrlSet (dataOutBusy c.dma.busCtrl)
  match dmaReadRetry io.dma c.ram t.localDmaAddr sasiDmaSectorRetries with
  | none => (c, { t with transferOk := false })
  | some bytes =>
    if storageIsMounted reg c.storage t.target then
      match storageWriteSector reg io.storage c.storage t.target (t.sector + t.i) (fun i => bytes i) with
      | (st, false) => ({ c with storage := st }, { t with transferOk := false })
      | (st, true) => advanceSector { c with storage := st } { t with anyStorageWrites := true }
    else (c, { t with transferOk := false })

def sectorStep (io : SectorIo Io) (c : Card σ) (t : Transfer) : Card σ × Transfer :=
  match t.dir with
  | .read => readSectorStep reg io c t
  | .write => writeSectorStep reg io c t

/-- The sync after the write loop; a failure is a failed transfer. -/
def syncTransfer (io : Io) (c : Card σ) (t : Transfer) : Card σ × Transfer :=
  if t.anyStorageWrites && t.transferOk && storageIsMounted reg c.storage t.target then
    match storageSync reg io c.storage t.target with
    | (st, true) => ({ c with storage := st }, t)
    | (st, false) => ({ c with storage := st }, { t with transferOk := false })
  else (c, t)

/-- The common epilogue: write back the address and enter the status phase. -/
def completeTransfer (c : Card σ) (t : Transfer) : Card σ :=
  let c := { c with dma := { c.dma with logicalBlock := t.sector + t.blocks, blockCount := 0 } }
  let c := (c.setDmaAddress t.localDmaAddr).cachedSyncDmaAddress
  if t.transferOk then signalCommandComplete c else signalDmaFailureStatus c

def finishTransfer (io : SectorIo Io) (c : Card σ) (t : Transfer) : Card σ :=
  match t.dir with
  | .read => completeTransfer c t
  | .write =>
    let (c, t) := syncTransfer reg io.storage c t
    completeTransfer c t

/-- What a transfer does at a sector boundary. -/
def transferStep (io : SectorIo Io) (c : Card σ) (t : Transfer) : Card σ × Option Transfer :=
  if c.dma.resetRequested then (c, none)
  else if t.transferOk ∧ t.i < t.blocks then
    let (c, t) := sectorStep reg io c t
    (c, some t)
  else (finishTransfer reg io c t, none)

/-- The environment of a whole transfer: the answers for each sector and whether a
RESET arrives before the boundary. -/
structure TransferEnv (Io : Type) where
  sector : ℕ → SectorIo Io
  resetSeen : ℕ → Bool

def Card.resetArrives (c : Card σ) (seen : Bool) : Card σ :=
  if seen then { c with dma := { c.dma with resetRequested := true } } else c

/-- Boundaries `k, k+1, ..` until the transfer ends; `fuel` bounds their number. -/
def runTransfer (env : TransferEnv Io) : ℕ → ℕ → Card σ × Option Transfer → Card σ × Option Transfer
  | 0, _, s => s
  | _, _, (c, none) => (c, none)
  | fuel + 1, k, (c, some t) =>
    runTransfer env fuel (k + 1)
      (transferStep reg (env.sector k) (c.resetArrives (env.resetSeen k)) t)

/-- There are at most `blocks` sectors and the boundary that completes. -/
def handleSectors (dir : Dir) (env : TransferEnv Io) (c : Card σ) (cmd : List Byte) :
    Card σ × Option Transfer :=
  let (c, t) := beginTransfer dir c cmd
  runTransfer reg env (t.blocks + 1) 0 (c, some t)

def handleReadSectors (env : TransferEnv Io) (c : Card σ) (cmd : List Byte) : Card σ :=
  (handleSectors reg .read env c cmd).1

def handleWriteSectors (env : TransferEnv Io) (c : Card σ) (cmd : List Byte) : Card σ :=
  (handleSectors reg .write env c cmd).1

end PicoV9k.Sasi
