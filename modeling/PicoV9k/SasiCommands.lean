import PicoV9k.SasiTransferRun

/-!
# The command interpreter

The commands of `route_to_sasi_target` other than the sector transfers, the
accumulation of a CDB and of a data-out list byte by byte, and the device reset.
-/
namespace PicoV9k.Sasi
open PicoV9k.Bus PicoV9k.Storage

variable {Io σ : Type}

def cdbLength : ℕ := 6

def driveParamsLength : ℕ := 8

/-- BSY|INP as REQUEST SENSE sets it: ACK is left as it is. -/
def senseDataIn (b : Byte) : Byte :=
  (b &&& ~~~(sasiReqBit ||| sasiMsgBit ||| sasiCtlBit)) ||| (sasiBsyBit ||| sasiInpBit)

/-- BSY as MODE SELECT sets it: ACK is left as it is. -/
def modeDataOut (b : Byte) : Byte :=
  (b &&& ~~~(sasiReqBit ||| sasiMsgBit ||| sasiCtlBit ||| sasiInpBit)) ||| sasiBsyBit

/-- REQ is dropped and ACK raised: the byte has been taken. -/
def acknowledged (b : Byte) : Byte := (b &&& ~~~sasiReqBit) ||| sasiAckBit

def handleTestUnitReady (c : Card σ) : Card σ := sasiEnterStatusPhase c 0x00

def handleXebecDiagnostic (c : Card σ) : Card σ := signalCommandComplete c

/-- The address registers after a list of `len` bytes was moved from `start`. -/
def Card.advanceAddress (c : Card σ) (start len : ℕ) : Card σ :=
  (c.setDmaAddress ((start + len) % ramSize)).cachedSyncDmaAddress

/-- A zero allocation length means four bytes, and four is the most. -/
def senseSize (cmd : List Byte) : ℕ :=
  if cdbByte cmd 4 = 0 then 4 else min (cdbByte cmd 4).toNat 4

def handleRequestSense (io : SectorIo Io) (c : Card σ) (cmd : List Byte) : Card σ :=
  let size := senseSize cmd
  let c := c.sasiBusCtrlSet (senseDataIn c.dma.busCtrl)
  let senseAddr := c.dma.dmaAddress.full % ramSize
  match dmaWriteToVictorRam (io.dma 0) c.ram senseAddr size fun _ => 0 with
  | (ram, false) => signalDmaFailureStatus { c with ram := ram }
  | (ram, true) => signalCommandComplete (Card.advanceAddress { c with ram := ram } senseAddr size)

/-- Fetch a parameter list whose content is ignored. -/
def fetchParameters (io : SectorIo Io) (c : Card σ) (len : ℕ) : Card σ :=
  let start := c.dma.dmaAddress.full % ramSize
  match dmaReadFromVictorRam (io.dma 0) c.ram start with
  | none => signalDmaFailureStatus c
  | some _ => signalCommandComplete (c.advanceAddress start len)

def handleModeSelect (io : SectorIo Io) (c : Card σ) (cmd : List Byte) : Card σ :=
  let paramLen := (cdbByte cmd 4).toNat
  if paramLen = 0 then signalCommandComplete c
  else fetchParameters io (c.sasiBusCtrlSet (modeDataOut c.dma.busCtrl)) paramLen

/-- Ask for the next byte of a data-out list. -/
def requestDataOutByte (c : Card σ) : Card σ :=
  let c := { c with dma := { c.dma with nonDmaReq := true } }
  let c := c.sasiBusCtrlSet (dataOutRequest c.dma.busCtrl)
  { c with dma := dmaUpdateInterrupts c.dma true }

/-- SET DRIVE PARAMS: eight bytes by DMA, or through the DATA register when DMA is off. -/
def handleDriveParams (io : SectorIo Io) (c : Card σ) : Card σ :=
  if c.dma.dmaEnabled then
    fetchParameters io (c.sasiBusCtrlSet (dataOutBusy c.dma.busCtrl)) driveParamsLength
  else
    requestDataOutByte
      { c with dma := { c.dma with buffer := [], dataOutExpected := driveParamsLength } }

inductive Opcode
  | testUnitReady | diagnostic | readSix | requestSense | writeSix | driveParams | modeSelect | unknown
  deriving DecidableEq, Repr

def Opcode.ofByte (op : Byte) : Opcode :=
  if op = 0x00 ∨ op = 0x01 then .testUnitReady
  else if op = 0xE0 ∨ op = 0xE3 ∨ op = 0xE4 then .diagnostic
  else if op = 0x08 then .readSix
  else if op = 0x03 then .requestSense
  else if op = 0x0A then .writeSix
  else if op = 0x0C then .driveParams
  else if op = 0x15 then .modeSelect
  else .unknown

/-- READ(6) and WRITE(6) stop at their first sector boundary; every other command runs here. -/
def routeToSasiTarget (io : SectorIo Io) (c : Card σ) (cmd : List Byte) :
    Card σ × Option Transfer :=
  let c := c.record (.routed c.dma.selectedTarget c.dma.dmaAddress.full cmd)
  match Opcode.ofByte (cdbByte cmd 0) with
  | .testUnitReady => (handleTestUnitReady c, none)
  | .diagnostic => (handleXebecDiagnostic c, none)
  | .readSix => let (c, t) := beginTransfer .read c cmd; (c, some t)
  | .requestSense => (handleRequestSense io c cmd, none)
  | .writeSix => let (c, t) := beginTransfer .write c cmd; (c, some t)
  | .driveParams => (handleDriveParams io c, none)
  | .modeSelect => (handleModeSelect io c cmd, none)
  | .unknown => (signalCommandComplete c, none)

def commandComplete (commandBuffer : List Byte) : Bool := decide (cdbLength ≤ commandBuffer.length)

/-- `seenAt` is when the handler saw the byte; it identifies a command by its last byte. -/
def handleSasiCommandByte (io : SectorIo Io) (c : Card σ) (seenAt : ℕ) (cmdByte : Byte) :
    Card σ × Option Transfer :=
  let c := { c with cmdBuffer := c.cmdBuffer ++ [cmdByte] }
  if commandComplete c.cmdBuffer then
    let c := { c with history := { c.history with issuedAt := seenAt } }
    match routeToSasiTarget io c c.cmdBuffer with
    | (c, none) => ({ c with cmdBuffer := [] }, none)
    | (c, some t) => (c, some t)
  else (sasiRequestCmdByte c, none)

def handleSasiDataOutByte (c : Card σ) (dataByte : Byte) : Card σ :=
  if c.dma.dataOutExpected = 0 then c
  else
    let buffer := if c.dma.buffer.length < 16 then c.dma.buffer ++ [dataByte] else c.dma.buffer
    let expected := c.dma.dataOutExpected - 1
    if 0 < expected then
      requestDataOutByte { c with dma := { c.dma with buffer := buffer, dataOutExpected := expected } }
    else signalCommandComplete { c with dma := { c.dma with buffer := [], dataOutExpected := 0 } }

/-- The address and CONTROL belong to the interrupt handler and survive. -/
def dmaDeviceReset (c : Card σ) : Card σ :=
  { c with
    dma := { c.dma with
      busCtrl := 0
      nonDmaReq := false
      assertingAck := false
      dmaEnabled := false
      dmaDirIn := false
      dataOutExpected := 0
      statusPending := false
      command := 0
      status := 0
      selectedTarget := 0
      blockCount := 0
      logicalBlock := 0
      resetRequested := false
      interruptPending := false }
    cmdBuffer := []
    history := { c.history with statusOf := none } }

end PicoV9k.Sasi
