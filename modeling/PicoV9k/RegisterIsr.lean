import PicoV9k.SasiCommands
import PicoV9k.MgmtChannel

/-!
# The interrupt handler and the deferred worker

Core 1 answers the register FIFO from the cached cells and puts the accesses with
side effects into a queue; the worker takes one entry at a time and owns the
controller. `Bridge.isr` handles one FIFO word, `Bridge.workerStep` one queue entry
or one sector boundary.
-/
namespace PicoV9k.Sasi
open PicoV9k.Bus PicoV9k.Storage PicoV9k.Mgmt

def deferQueueSize : ℕ := 256

/-- A queued access; `seenAt` counts the FIFO words the handler had taken, itself included. -/
structure Entry where
  event : FifoEvent
  seenAt : ℕ
  deriving DecidableEq, Repr

/-- Core 1 as a whole; `transfer` is the sector loop the worker is inside. -/
structure Bridge (σ : Type) (n : ℕ) where
  card : Card σ
  queue : List Entry
  drops : ℕ
  transfer : Option Transfer
  pendingPrefetch : ℕ
  fifoEntries : ℕ
  chan : MgmtChan n

variable {Io σ : Type} {n : ℕ} (reg : Registry Io σ)

def Bridge.initial (ram : ℕ → Byte) (storage : Routing σ) (chan : MgmtChan n) : Bridge σ n where
  card := .initial ram storage
  queue := []
  drops := 0
  transfer := none
  pendingPrefetch := 0
  fifoEntries := 0
  chan := chan

def Reg.addressByte : Reg → Bool
  | .addrL | .addrM | .addrH => true
  | _ => false

def Reg.management : Reg → Bool
  | .mgmtCmd | .mgmtStatus | .mgmtResp => true
  | _ => false

/-- The cached cell of a register; an unused offset answers `0xFF`. -/
def Bridge.cell (s : Bridge σ n) : Reg → Byte
  | .control => s.card.cache.control
  | .data => s.card.cache.data
  | .status => s.card.cache.status
  | .statusAlias => s.card.cache.statusAlias
  | .addrL => s.card.cache.addrL
  | .addrM => s.card.cache.addrM
  | .addrH => s.card.cache.addrH
  | .mgmtCmd => s.chan.cmdEcho
  | .mgmtStatus => s.chan.status
  | .mgmtResp => s.chan.respByte
  | .unused | .outside => 0xFF

/-- The bus phase the host sees. -/
def Bridge.cachedPhase (s : Bridge σ n) : Byte := s.card.cache.status &&& phaseMask

/-- The byte a prefetch drives onto the bus; DATA depends on the cached phase. -/
def Bridge.served (s : Bridge σ n) : Reg → Byte
  | .data =>
    if s.cachedPhase = phaseMask then 0x00
    else if s.cachedPhase = sasiCtlBit ||| sasiInpBit then s.card.dma.status
    else s.card.cache.data
  | reg => s.cell reg

/-- Serving DATA in the status or message phase also stores the byte in the cell. -/
def Bridge.prefetch (s : Bridge σ n) (reg : Reg) : Bridge σ n :=
  { s with
    card := if reg = .data then s.card.cachedSetData (s.served .data) else s.card
    pendingPrefetch := s.pendingPrefetch + 1 }

/-- A full queue drops the entry. -/
def Bridge.enqueue (s : Bridge σ n) (event : FifoEvent) : Bridge σ n :=
  if s.queue.length + 1 < deferQueueSize then
    { s with queue := s.queue ++ [⟨event, s.fifoEntries⟩] }
  else { s with drops := s.drops + 1 }

/-- The cells after the host has read DATA: status, then message, then bus free. -/
def CachedRegs.dataRead (c : CachedRegs) : CachedRegs :=
  if hasBit c.status sasiMsgBit then { c.setStatus 0x00 with data := 0x00 }
  else if c.status &&& (sasiCtlBit ||| sasiInpBit) = sasiCtlBit ||| sasiInpBit then
    { c.setStatus ((c.status &&& 0x1F) ||| sasiMsgBit) with data := 0x00 }
  else c

def Bridge.readCommit (s : Bridge σ n) (reg : Reg) : Bridge σ n :=
  let s := { s with pendingPrefetch := s.pendingPrefetch - 1 }
  match reg with
  | .data =>
    let s := { s with card := { s.card with cache := CachedRegs.dataRead s.card.cache } }
    s.enqueue (.readCommit .data)
  | .status | .statusAlias =>
    { s with card := { s.card with dma := dmaUpdateInterrupts s.card.dma false } }
  | _ => s

/-- The phase the handler predicts for a CONTROL write, before the worker has seen it. -/
def CachedRegs.predictControl (c : CachedRegs) (data : Byte) : CachedRegs :=
  let prevSel := hasBit c.control dmaSelectBit
  let nowSel := hasBit data dmaSelectBit
  if hasBit data dmaResetBit then { c.setStatus 0x00 with data := 0x00 }
  else if nowSel && !prevSel then { c.setStatus sasiBsyBit with data := 0x00 }
  else if !nowSel && prevSel then
    { c.setStatus (sasiBsyBit ||| sasiReqBit ||| sasiCtlBit) with data := 0x00 }
  else c

/-- Store of a written byte; DATA and the management cells are left alone. -/
def CachedRegs.store (c : CachedRegs) (reg : Reg) (data : Byte) : CachedRegs :=
  match reg with
  | .control => { c with control := data }
  | .status => c.setStatus data
  | .statusAlias => { c with statusAlias := data }
  | .addrL => { c with addrL := data }
  | .addrM => { c with addrM := data }
  | .addrH => { c with addrH := data }
  | _ => c

def DmaAddress.store (a : DmaAddress) (reg : Reg) (data : Byte) : DmaAddress :=
  match reg with
  | .addrL => { a with low := data }
  | .addrM => { a with mid := data }
  | .addrH => { a with high := data &&& 0x0F }
  | _ => a

/-- A RESET is announced to a running transfer at once; `resetAt` notes when. -/
def Card.announceReset (c : Card σ) (seenAt : ℕ) : Card σ :=
  { c with
    dma := { c.dma with resetRequested := true }
    history := { c.history with resetAt := seenAt } }

/-- A CONTROL write as the handler sees it: the RESET flag and the predicted phase. -/
def Card.controlWritten (c : Card σ) (data : Byte) (seenAt : ℕ) : Card σ :=
  let c := if hasBit data dmaResetBit then c.announceReset seenAt else c
  { c with cache := CachedRegs.predictControl c.cache data }

/-- What the handler does at once for a write, before any queueing. -/
def Bridge.writeThrough (s : Bridge σ n) (reg : Reg) (data : Byte) : Bridge σ n :=
  let card := { s.card with dma :=
    { s.card.dma with dmaAddress := DmaAddress.store s.card.dma.dmaAddress reg data } }
  let card := match reg with
    | .control => card.controlWritten data s.fifoEntries
    | _ => card
  { s with
    chan := (mgmtChanRegWrite s.chan reg data).1
    card := { card with cache := CachedRegs.store card.cache reg data }
    pendingPrefetch := s.pendingPrefetch - 1 }

def Reg.deferred : Reg → Bool
  | .control | .data | .status | .statusAlias => true
  | _ => false

def Bridge.regWrite (s : Bridge σ n) (reg : Reg) (written : Byte) : Bridge σ n :=
  let data := match reg with
    | .addrH => written &&& 0x0F
    | _ => written
  let s := s.writeThrough reg data
  if Reg.deferred reg then s.enqueue (.write reg written) else s

/-- `register_read_irq_isr` on one FIFO word, with the byte it drives for a prefetch. -/
def Bridge.isr (s : Bridge σ n) (event : FifoEvent) : Bridge σ n × Option Byte :=
  let s := { s with fifoEntries := s.fifoEntries + 1 }
  match event with
  | .prefetch .outside => (s, none)
  | .prefetch reg => (s.prefetch reg, some (s.served reg))
  | .readCommit .outside => (s, none)
  | .readCommit reg => (s.readCommit reg, none)
  | .write .outside _ => (s, none)
  | .write reg data => (s.regWrite reg data, none)
  | .unknown => (s, none)

/-- `defer_process_read`: the cells were advanced by the handler, the bus follows. -/
def deferProcessRead (c : Card σ) (reg : Reg) : Card σ :=
  match reg with
  | .status | .statusAlias => { c with dma := dmaUpdateInterrupts c.dma false }
  | .data =>
    let phase := c.dma.busCtrl &&& (sasiCtlBit ||| sasiInpBit)
    if hasBit c.dma.busCtrl sasiMsgBit then
      let dma := { c.dma with busCtrl := 0, nonDmaReq := false, statusPending := false }
      { c with dma := dmaUpdateInterrupts dma false }
    else if phase = sasiCtlBit ||| sasiInpBit then
      if c.dma.statusPending then
        let dma := { c.dma with
          statusPending := false
          nonDmaReq := true
          busCtrl := c.dma.busCtrl ||| sasiMsgBit }
        { c with dma := dmaUpdateInterrupts dma true }
      else c
    else if phase = sasiInpBit then { c with dma := { c.dma with nonDmaReq := false } }
    else c
  | _ => c

/-- SELECT rises: the target is taken from the DATA byte written before. -/
def selectAsserted (d : Registers) : Registers :=
  { d with
    busCtrl := d.busCtrl ||| sasiSelBit ||| sasiBsyBit
    selectedTarget := sasiExtractTargetId d.command }

/-- SELECT falls: the controller asks for a command. -/
def selectReleased (d : Registers) : Registers :=
  dmaUpdateInterrupts { d with
    busCtrl := ((d.busCtrl &&& ~~~sasiSelBit) ||| (sasiBsyBit ||| sasiReqBit ||| sasiCtlBit)) &&&
      ~~~sasiInpBit
    nonDmaReq := true } true

def controlModes (d : Registers) (data : Byte) : Registers :=
  { d with
    dmaEnabled := if hasBit data dmaOnLatchBit then hasBit data dmaOnValueBit else d.dmaEnabled
    dmaDirIn := hasBit data dmaWrModeBit }

/-- A RESET entry resets the device and clears the status cells once more. -/
def deferProcessControl (c : Card σ) (data : Byte) : Card σ :=
  let prevSel := hasBit c.dma.control dmaSelectBit
  let nowSel := hasBit data dmaSelectBit
  let c := { c with dma := { c.dma with control := data } }
  if hasBit data dmaResetBit then
    let c := dmaDeviceReset c
    { c with cache := { c.cache.setStatus 0x00 with data := 0x00 } }
  else
    let dma := controlModes c.dma data
    if nowSel && !prevSel then { c with dma := selectAsserted dma }
    else if !nowSel && prevSel then { c with dma := selectReleased dma }
    else { c with dma := dma }

/-- The DATA byte is taken: it may be a target, and the handshake acknowledges it. -/
def acceptDataByte (c : Card σ) (data : Byte) : Card σ :=
  let c := { c with dma := { c.dma with command := data } }
  let c := if hasBit c.dma.control dmaSelectBit then
      { c with dma := { c.dma with
          selectedTarget := sasiExtractTargetId data
          busCtrl := c.dma.busCtrl &&& ~~~sasiSelBit } }
    else c
  if c.dma.nonDmaReq && !hasBit c.dma.busCtrl sasiInpBit then
    Card.sasiBusCtrlSet
      { c with dma := { c.dma with nonDmaReq := false, assertingAck := true } }
      (acknowledged c.dma.busCtrl)
  else c

def deferProcessData (io : SectorIo Io) (c : Card σ) (seenAt : ℕ) (data : Byte) :
    Card σ × Option Transfer :=
  let c := acceptDataByte c data
  if c.dma.busCtrl &&& phaseMask = sasiCtlBit then handleSasiCommandByte io c seenAt data
  else if 0 < c.dma.dataOutExpected then (handleSasiDataOutByte c data, none)
  else (c, none)

/-- `defer_process_write`; a write of STATUS has no branch of its own. -/
def deferProcessWrite (io : SectorIo Io) (c : Card σ) (seenAt : ℕ) (target : Reg) (data : Byte) :
    Card σ × Option Transfer :=
  match target with
  | .control => (deferProcessControl c data, none)
  | .data => deferProcessData io c seenAt data
  | .addrL => ({ c with
      dma := { c.dma with dmaAddress := { c.dma.dmaAddress with low := data } }
      cache := { c.cache with addrL := data } }, none)
  | .addrM => ({ c with
      dma := { c.dma with dmaAddress := { c.dma.dmaAddress with mid := data } }
      cache := { c.cache with addrM := data } }, none)
  | .addrH => ({ c with
      dma := { c.dma with dmaAddress := { c.dma.dmaAddress with high := data &&& 0x0F } }
      cache := { c.cache with addrH := data &&& 0x0F } }, none)
  | _ => (c, none)

def deferProcessEntry (io : SectorIo Io) (c : Card σ) (e : Entry) : Card σ × Option Transfer :=
  match e.event with
  | .readCommit target => (deferProcessRead c target, none)
  | .write target data => deferProcessWrite io c e.seenAt target data
  | _ => (c, none)

/-- The CDB buffer is emptied when the command returns. -/
def Bridge.afterBoundary (s : Bridge σ n) : Card σ × Option Transfer → Bridge σ n
  | (c, some t) => { s with card := c, transfer := some t }
  | (c, none) => { s with card := { c with cmdBuffer := [] }, transfer := none }

def Bridge.afterEntry (s : Bridge σ n) (rest : List Entry) (r : Card σ × Option Transfer) :
    Bridge σ n :=
  { s with card := r.1, queue := rest, transfer := r.2 }

/-- A sector boundary of the running transfer, or the next queue entry. -/
def Bridge.workerStep (io : SectorIo Io) (s : Bridge σ n) : Option (Bridge σ n) :=
  match s.transfer, s.queue with
  | some t, _ => some (s.afterBoundary (transferStep reg io s.card t))
  | none, [] => none
  | none, e :: rest => some (s.afterEntry rest (deferProcessEntry io s.card e))

/-- Between two entries the worker serves the console, which may mount and eject. -/
def Bridge.service (s : Bridge σ n) (storage : Routing σ) : Option (Bridge σ n) :=
  if s.transfer = none then some { s with card := { s.card with storage := storage } } else none

/-- Nothing is queued and no command is running. -/
def Bridge.Idle (s : Bridge σ n) : Prop := s.queue = [] ∧ s.transfer = none

end PicoV9k.Sasi
