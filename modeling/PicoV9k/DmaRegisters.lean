import Mathlib.Tactic

/-!
# The register window of the DMA card

The eight-bit SASI register file at `0xEF300`, the words the register state
machine pushes into its receive FIFO, the cached cells from which the interrupt
handler answers the 8088, and the authoritative controller state `Registers`.
-/
namespace PicoV9k.Bus

abbrev Byte := BitVec 8

abbrev sasiInpBit : Byte := 0x01
abbrev sasiCtlBit : Byte := 0x02
abbrev sasiBsyBit : Byte := 0x04
abbrev sasiReqBit : Byte := 0x08
abbrev sasiMsgBit : Byte := 0x10
abbrev sasiSelBit : Byte := 0x20
abbrev sasiAckBit : Byte := 0x40

abbrev dmaOnValueBit : Byte := 0x01
abbrev dmaOnLatchBit : Byte := 0x04
abbrev dmaWrModeBit : Byte := 0x08
abbrev dmaSelectBit : Byte := 0x10
abbrev dmaResetBit : Byte := 0x20

/-- The test `b & mask` of the source, for a one-bit mask. -/
def hasBit (b mask : Byte) : Bool := (b &&& mask) != 0

/-- The bits of `bus_ctrl` that the STATUS cells mirror. -/
abbrev statusMask : Byte := sasiInpBit ||| sasiCtlBit ||| sasiBsyBit ||| sasiReqBit ||| sasiMsgBit

/-- The bits that tell the bus phases apart. -/
abbrev phaseMask : Byte := sasiCtlBit ||| sasiInpBit ||| sasiMsgBit

/-- `__builtin_ctz` on the seven target bits; a zero mask selects target 0. -/
def sasiExtractTargetId (selection : Byte) : Byte :=
  match (List.range 7).find? (fun i => (selection &&& 0x7F).getLsbD i) with
  | some i => BitVec.ofNat 8 i
  | none => 0

/-- A register of the window; the 8088 may also hit an unused offset or miss the window. -/
inductive Reg
  | control | data | status | statusAlias
  | addrL | addrM | addrH
  | mgmtCmd | mgmtStatus | mgmtResp
  | unused | outside
  deriving DecidableEq, Repr

def dmaRegisterBase : ℕ := 0xEF300

def dmaMaskOffset (offset : ℕ) : ℕ :=
  if 0x80 ≤ offset then offset - offset % 0x20 else offset - offset % 0x10

/-- Window check, `dma_mask_offset` and `is_valid_reg_offset` in one table. -/
def regOfAddress (address : ℕ) : Reg :=
  if address < dmaRegisterBase ∨ dmaRegisterBase + 0x100 ≤ address then .outside
  else match dmaMaskOffset (address - dmaRegisterBase) with
    | 0x00 => .control
    | 0x10 => .data
    | 0x20 => .status
    | 0x30 => .statusAlias
    | 0x40 => .mgmtCmd
    | 0x50 => .mgmtStatus
    | 0x60 => .mgmtResp
    | 0x80 => .addrL
    | 0xA0 => .addrM
    | 0xC0 => .addrH
    | _ => .unused

/-- A decoded word of the register FIFO. -/
inductive FifoEvent
  | prefetch (reg : Reg)
  | readCommit (reg : Reg)
  | write (reg : Reg) (data : Byte)
  | unknown
  deriving DecidableEq, Repr

def fifoPayloadType (raw : BitVec 32) : ℕ := (raw >>> 30).toNat % 4

def boardFifoReadAddress (raw : BitVec 32) : ℕ := (raw >>> 10).toNat % 2 ^ 20

def dmaFifoWriteAddress (raw : BitVec 32) : ℕ := (raw >>> 2).toNat % 2 ^ 20

def dmaFifoWriteData (raw : BitVec 32) : Byte := (raw >>> 22).setWidth 8

/-- The payload switch of the interrupt handler. -/
def FifoEvent.ofRaw (raw : BitVec 32) : FifoEvent :=
  match fifoPayloadType raw with
  | 0 => .prefetch (regOfAddress (boardFifoReadAddress raw))
  | 1 => .readCommit (regOfAddress (boardFifoReadAddress raw))
  | 2 => .write (regOfAddress (dmaFifoWriteAddress raw)) (dmaFifoWriteData raw)
  | _ => .unknown

/-- The `dma_address` union: three programmable bytes and the unused top byte. -/
structure DmaAddress where
  low : Byte
  mid : Byte
  high : Byte
  top : Byte
  deriving DecidableEq, Repr

def DmaAddress.full (a : DmaAddress) : ℕ :=
  a.low.toNat + 2 ^ 8 * a.mid.toNat + 2 ^ 16 * a.high.toNat + 2 ^ 24 * a.top.toNat

def DmaAddress.ofFull (n : ℕ) : DmaAddress :=
  ⟨BitVec.ofNat 8 n, BitVec.ofNat 8 (n / 2 ^ 8), BitVec.ofNat 8 (n / 2 ^ 16),
    BitVec.ofNat 8 (n / 2 ^ 24)⟩

/-- Storing a 32-bit word through the union and reading it back is the identity. -/
@[simp] theorem DmaAddress.full_ofFull {n : ℕ} (h : n < 2 ^ 32) : (ofFull n).full = n := by
  simp only [full, ofFull, BitVec.toNat_ofNat]
  omega

/-- `dma_registers_t`, with the flags of its `state` record inlined and the
parameter buffer kept as the list of its first `index` bytes. -/
structure Registers where
  control : Byte
  command : Byte
  status : Byte
  dmaAddress : DmaAddress
  blockCount : ℕ
  logicalBlock : ℕ
  buffer : List Byte
  dmaEnabled : Bool
  dmaDirIn : Bool
  interruptPending : Bool
  assertingAck : Bool
  nonDmaReq : Bool
  statusPending : Bool
  dataOutExpected : ℕ
  resetRequested : Bool
  busCtrl : Byte
  selectedTarget : Byte
  deriving DecidableEq, Repr

/-- The static zero initialisation of `dma_registers`. -/
def Registers.initial : Registers where
  control := 0
  command := 0
  status := 0
  dmaAddress := ⟨0, 0, 0, 0⟩
  blockCount := 0
  logicalBlock := 0
  buffer := []
  dmaEnabled := false
  dmaDirIn := false
  interruptPending := false
  assertingAck := false
  nonDmaReq := false
  statusPending := false
  dataOutExpected := 0
  resetRequested := false
  busCtrl := 0
  selectedTarget := 0

/-- The SASI cells of `cached_regs`; the management cells belong to their channel. -/
structure CachedRegs where
  control : Byte
  data : Byte
  status : Byte
  statusAlias : Byte
  addrL : Byte
  addrM : Byte
  addrH : Byte
  deriving DecidableEq, Repr

/-- `dma_defer_init`: every cell is `0xFF` except those that must start at zero. -/
def CachedRegs.initial : CachedRegs := ⟨0, 0xFF, 0, 0, 0, 0, 0⟩

/-- Both STATUS cells at once, as every writer of the source stores them. -/
def CachedRegs.setStatus (c : CachedRegs) (s : Byte) : CachedRegs :=
  { c with status := s, statusAlias := s }

def dmaUpdateInterrupts (dma : Registers) (irqState : Bool) : Registers :=
  { dma with interruptPending := irqState }

end PicoV9k.Bus
