import PicoV9k.StorageRouting
import PicoV9k.WrappingMemory

/-!
# The SASI controller

The phase helpers of `sasi.c`, the sector loops of READ(6) and WRITE(6) cut at
their sector boundaries, and the dispatch of a complete command. `History` is
instrumentation: it records what the controller did and for which command.
-/
namespace PicoV9k.Sasi
open PicoV9k.Bus PicoV9k.Storage

abbrev sasiStatusGood : Byte := 0x00
abbrev sasiStatusCheckCondition : Byte := 0x02

def sasiDmaSectorRetries : ℕ := 8

abbrev ramSize : ℕ := 2 ^ 20

/-- Outcome of one call of the DMA engine; a failed write leaves arbitrary bytes in its window. -/
inductive DmaOutcome
  | ok
  | failed (junk : ℕ → Byte)

def dmaWriteToVictorRam (outcome : DmaOutcome) (ram : ℕ → Byte) (start len : ℕ)
    (data : ℕ → Byte) : (ℕ → Byte) × Bool :=
  match outcome with
  | .ok => (Wrap.write ramSize ram start len data, true)
  | .failed junk => (Wrap.write ramSize ram start len junk, false)

/-- On failure the caller's buffer is not used. -/
def dmaReadFromVictorRam (outcome : DmaOutcome) (ram : ℕ → Byte) (start : ℕ) : Option (ℕ → Byte) :=
  match outcome with
  | .ok => some fun i => ram ((start + i) % ramSize)
  | .failed _ => none

/-- The retry loop around one sector write, with `attempts` left. -/
def dmaWriteRetry (outcome : ℕ → DmaOutcome) (start : ℕ) (data : ℕ → Byte) :
    ℕ → (ℕ → Byte) → (ℕ → Byte) × Bool
  | 0, ram => (ram, false)
  | attempts + 1, ram =>
    let attempt := sasiDmaSectorRetries - (attempts + 1)
    match dmaWriteToVictorRam (outcome attempt) ram start 512 data with
    | (ram, true) => (ram, true)
    | (ram, false) => dmaWriteRetry outcome start data attempts ram

/-- The retry loop around one sector read, with `attempts` left. -/
def dmaReadRetry (outcome : ℕ → DmaOutcome) (ram : ℕ → Byte) (start : ℕ) : ℕ → Option (ℕ → Byte)
  | 0 => none
  | attempts + 1 =>
    let attempt := sasiDmaSectorRetries - (attempts + 1)
    match dmaReadFromVictorRam (outcome attempt) ram start with
    | some data => some data
    | none => dmaReadRetry outcome ram start attempts

inductive Effect
  | routed (target : Byte) (address : ℕ) (cdb : List Byte)
  | sector (lba : ℕ)
  | status (statusByte : Byte)
  deriving DecidableEq, Repr

/-- An effect, the time its command's last CDB byte was written and the time of
the latest RESET the interrupt handler had seen when it happened. -/
structure LogEntry where
  issuedAt : ℕ
  resetAt : ℕ
  effect : Effect
  deriving DecidableEq, Repr

structure History where
  issuedAt : ℕ
  resetAt : ℕ
  statusOf : Option ℕ
  log : List LogEntry
  deriving DecidableEq, Repr

/-- Everything core 1 owns, with the statics of `sasi.c` and the worlds it acts on. -/
structure Card (σ : Type) where
  dma : Registers
  cache : CachedRegs
  cmdBuffer : List Byte
  ram : ℕ → Byte
  storage : Routing σ
  history : History

variable {Io σ : Type}

/-- Power-up: zeroed registers and the cells of `dma_defer_init`. -/
def Card.initial (ram : ℕ → Byte) (storage : Routing σ) : Card σ :=
  ⟨.initial, .initial, [], ram, storage, ⟨0, 0, none, []⟩⟩

def Card.record (c : Card σ) (e : Effect) : Card σ :=
  { c with history :=
      { c.history with log := c.history.log ++ [⟨c.history.issuedAt, c.history.resetAt, e⟩] } }

/-- `sasi_bus_ctrl_set`: the STATUS cells and `bus_ctrl` change together. -/
def Card.sasiBusCtrlSet (c : Card σ) (busCtrl : Byte) : Card σ :=
  { c with
    cache := c.cache.setStatus (busCtrl &&& statusMask)
    dma := { c.dma with busCtrl := busCtrl } }

@[simp] lemma Card.record_dma (c : Card σ) (e : Effect) : (c.record e).dma = c.dma := rfl

@[simp] lemma Card.record_ram (c : Card σ) (e : Effect) : (c.record e).ram = c.ram := rfl

@[simp] lemma Card.record_storage (c : Card σ) (e : Effect) : (c.record e).storage = c.storage := rfl

@[simp] lemma Card.sasiBusCtrlSet_ram (c : Card σ) (b : Byte) : (c.sasiBusCtrlSet b).ram = c.ram := rfl

@[simp] lemma Card.sasiBusCtrlSet_storage (c : Card σ) (b : Byte) :
    (c.sasiBusCtrlSet b).storage = c.storage := rfl

def Card.cachedSetData (c : Card σ) (value : Byte) : Card σ :=
  { c with cache := { c.cache with data := value } }

def Card.cachedSyncDmaAddress (c : Card σ) : Card σ :=
  { c with cache :=
      { c.cache with
        addrL := c.dma.dmaAddress.low
        addrM := c.dma.dmaAddress.mid
        addrH := c.dma.dmaAddress.high &&& 0x0F } }

def Card.setDmaAddress (c : Card σ) (full : ℕ) : Card σ :=
  { c with dma := { c.dma with dmaAddress := .ofFull full } }

/-- BSY|CTL without REQ: the controller is executing. -/
def commandBusy (b : Byte) : Byte :=
  (b &&& ~~~(sasiReqBit ||| sasiMsgBit ||| sasiInpBit ||| sasiAckBit)) ||| (sasiBsyBit ||| sasiCtlBit)

/-- BSY|INP: a sector is on its way to the host. -/
def dataInBusy (b : Byte) : Byte :=
  (b &&& ~~~(sasiReqBit ||| sasiMsgBit ||| sasiCtlBit ||| sasiAckBit)) ||| (sasiBsyBit ||| sasiInpBit)

/-- BSY alone: bytes are fetched from the host by DMA. -/
def dataOutBusy (b : Byte) : Byte :=
  (b &&& ~~~(sasiReqBit ||| sasiMsgBit ||| sasiCtlBit ||| sasiInpBit ||| sasiAckBit)) ||| sasiBsyBit

/-- BSY|REQ: a data-out byte is requested through the DATA register. -/
def dataOutRequest (b : Byte) : Byte :=
  (b &&& ~~~(sasiMsgBit ||| sasiCtlBit ||| sasiInpBit ||| sasiAckBit)) ||| (sasiBsyBit ||| sasiReqBit)

/-- BSY|REQ|CTL: a command byte is requested. -/
def commandRequest (b : Byte) : Byte :=
  (b &&& ~~~(sasiAckBit ||| sasiMsgBit ||| sasiInpBit)) ||| (sasiBsyBit ||| sasiReqBit ||| sasiCtlBit)

/-- BSY|REQ|CTL|INP: the status byte is offered. -/
def statusRequest (b : Byte) : Byte :=
  (b &&& ~~~(sasiAckBit ||| sasiMsgBit)) |||
    (sasiBsyBit ||| sasiReqBit ||| sasiCtlBit ||| sasiInpBit)

def sasiApplyCommandDelay (c : Card σ) : Card σ := c.sasiBusCtrlSet (commandBusy c.dma.busCtrl)

def sasiRequestCmdByte (c : Card σ) : Card σ :=
  let c := { c with dma := { c.dma with nonDmaReq := true } }
  let c := c.sasiBusCtrlSet (commandRequest c.dma.busCtrl)
  { c with dma := dmaUpdateInterrupts c.dma true }

def sasiEnterStatusPhase (c : Card σ) (statusByte : Byte) : Card σ :=
  let c := c.record (.status statusByte)
  let c := { c with
    dma := { c.dma with status := statusByte, nonDmaReq := true, statusPending := true }
    history := { c.history with statusOf := some c.history.issuedAt } }
  let c := c.cachedSetData statusByte
  let c := c.sasiBusCtrlSet (statusRequest c.dma.busCtrl)
  { c with dma := dmaUpdateInterrupts c.dma true }

def signalCommandCompleteWithStatus (c : Card σ) (statusByte : Byte) : Card σ :=
  sasiEnterStatusPhase c statusByte

def signalDmaFailureStatus (c : Card σ) : Card σ :=
  signalCommandCompleteWithStatus c sasiStatusCheckCondition

def signalCommandComplete (c : Card σ) : Card σ := signalCommandCompleteWithStatus c sasiStatusGood

end PicoV9k.Sasi
