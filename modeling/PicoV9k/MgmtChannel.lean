import PicoV9k.DmaRegisters
import PicoV9k.RingBuffer
import PicoV9k.InterleavedScript

/-!
# The management channel

`mgmt_chan.c`: a command ring from the Victor to core 0 and a response FIFO back,
behind three cells of the register window. Core 1 runs `mgmtChanRegWrite` for every
bus write; the functions of core 0 are scripts whose actions are single accesses to
the variables they share with core 1.
-/
namespace PicoV9k.Mgmt
open PicoV9k.Bus PicoV9k.Rings PicoV9k.Scripts

abbrev mgmtChanSig : Byte := 0xD0
abbrev mgmtChanOverflow : Byte := 0x08
abbrev mgmtChanCmdFull : Byte := 0x04
abbrev mgmtChanRespReady : Byte := 0x02
abbrev mgmtChanRespPhase : Byte := 0x01

def mgmtSpinMax : ℕ := 4000000
def mgmtPumpBurst : ℕ := 64
def mgmtPumpAckSpin : ℕ := 2000

abbrev cmdRingSz : ℕ := 64

/-- The statics of the channel, for a response FIFO of `n` slots. -/
structure MgmtChan (n : ℕ) where
  cmd : Ring Byte cmdRingSz
  resp : Ring Byte n
  respByte : Byte
  status : Byte
  cmdEcho : Byte
  ack : BitVec 32
  served : BitVec 32
  resetReq : Bool
  cmdDrop : BitVec 32
  cmdDropSeen : BitVec 32
  overflow : Bool
  cmdFull : Bool
  respReady : Bool
  phase : Bool

variable {n : ℕ}

def MgmtChan.initial (hn : 0 < n) : MgmtChan n where
  cmd := .empty 0 (by decide)
  resp := .empty 0 hn
  respByte := 0
  status := mgmtChanSig
  cmdEcho := 0xFF
  ack := 0
  served := 0
  resetReq := false
  cmdDrop := 0
  cmdDropSeen := 0
  overflow := false
  cmdFull := false
  respReady := false
  phase := false

/-- The STATUS byte for the flags of core 0. -/
def statusBits (overflow cmdFull respReady phase : Bool) : Byte :=
  mgmtChanSig ||| (if overflow then mgmtChanOverflow else 0) |||
    (if cmdFull then mgmtChanCmdFull else 0) ||| (if respReady then mgmtChanRespReady else 0) |||
    (if phase then mgmtChanRespPhase else 0)

lemma statusBits_ready (o f r p : Bool) : hasBit (statusBits o f r p) mgmtChanRespReady = r := by
  revert o f r p
  decide

lemma statusBits_phase (o f r p : Bool) : hasBit (statusBits o f r p) mgmtChanRespPhase = p := by
  revert o f r p
  decide

def MgmtChan.statusStore (c : MgmtChan n) : MgmtChan n :=
  { c with status := statusBits c.overflow c.cmdFull c.respReady c.phase }

/-- The next FIFO byte goes to the RESP cell. -/
def MgmtChan.takeNext (c : MgmtChan n) : MgmtChan n :=
  { c with respByte := c.resp.peek, resp := c.resp.pop }

/-- The byte in the RESP cell is new and awaits its acknowledgement. -/
def MgmtChan.announce (c : MgmtChan n) : MgmtChan n :=
  MgmtChan.statusStore { c with phase := !c.phase, respReady := true, served := c.served + 1 }

def MgmtChan.dropReady (c : MgmtChan n) : MgmtChan n :=
  MgmtChan.statusStore { c with respReady := false }

/-- `mgmt_chan_reg_write`: a full ring drops the command byte but echoes it all the same. -/
def mgmtChanRegWrite (c : MgmtChan n) (reg : Reg) (val : Byte) : MgmtChan n × Bool :=
  match reg with
  | .mgmtCmd =>
    let c := if c.cmd.IsFull then { c with cmdDrop := c.cmdDrop + 1 }
      else { c with cmd := c.cmd.push val }
    ({ c with cmdEcho := ~~~val }, true)
  | .mgmtResp => ({ c with ack := c.ack + 1 }, true)
  | .mgmtStatus => ({ c with resetReq := true }, true)
  | _ => (c, false)

/-- A bus write touches the fields of core 1 only. -/
lemma mgmtChanRegWrite_eq (c : MgmtChan n) (reg : Reg) (val : Byte) :
    (mgmtChanRegWrite c reg val).1 =
      { c with
        cmd := if reg = .mgmtCmd ∧ ¬ c.cmd.IsFull then c.cmd.push val else c.cmd
        cmdEcho := if reg = .mgmtCmd then ~~~val else c.cmdEcho
        ack := if reg = .mgmtResp then c.ack + 1 else c.ack
        resetReq := decide (reg = .mgmtStatus) || c.resetReq
        cmdDrop := if reg = .mgmtCmd ∧ c.cmd.IsFull then c.cmdDrop + 1 else c.cmdDrop } := by
  cases reg with
  | mgmtCmd => by_cases hfull : c.cmd.IsFull <;> simp [mgmtChanRegWrite, hfull]
  | _ => simp [mgmtChanRegWrite]

/-- The channel, next to whatever else the two cores and the Victor share. -/
structure Shared (n : ℕ) (V : Type) where
  chan : MgmtChan n
  side : V

variable {V : Type}

/-- The channel at one instant; scripts use at most one shared field of it. -/
def now : Script (Shared n V) (MgmtChan n) := .read (·.chan)

def onChan (g : MgmtChan n → MgmtChan n) : Script (Shared n V) Unit :=
  .modify fun s => { s with chan := g s.chan }

def mgmtChanPublish : Script (Shared n V) Unit := do
  let c ← now
  if c.served = c.ack then
    if ¬ c.resp.IsEmpty then
      onChan MgmtChan.takeNext
      -- the byte is visible before the status that announces it
      onChan MgmtChan.announce
    else if c.respReady then
      onChan MgmtChan.dropReady

def latchOverflow : Script (Shared n V) Unit :=
  onChan fun c => MgmtChan.statusStore { c with overflow := true }

/-- How the wait for a free response slot ends. -/
inductive Room
  | room | reset | gaveUp
  deriving DecidableEq

/-- One round of the loop on a full FIFO; `checkReset` tells `mgmt_chan_blob_send`
from `mgmt_chan_resp_write`. -/
def respRoomRound (checkReset : Bool) (spins : ℕ) : Script (Shared n V) (ℕ ⊕ Room) := do
  let c ← now
  if ¬ c.resp.IsFull then return .inr .room
  else if checkReset ∧ c.resetReq = true then return .inr .reset
  else
    mgmtChanPublish
    let c ← now
    if ¬ c.resp.IsFull then return .inr .room
    else if mgmtSpinMax ≤ spins + 1 then
      latchOverflow
      return .inr .gaveUp
    else return .inl (spins + 1)

def respRoom (checkReset : Bool) : Script (Shared n V) Room := .iterate (respRoomRound checkReset) 0

def respPush (b : Byte) : Script (Shared n V) Unit := onChan fun c => { c with resp := c.resp.push b }

def mgmtChanRespWrite : List Byte → Script (Shared n V) Unit
  | [] => pure ()
  | b :: buf => do
    let c ← now
    if c.overflow then pure ()
    else
      let r ← respRoom false
      if r = .room then
        respPush b
        mgmtChanRespWrite buf
      else pure ()

/-- The copy loop of `mgmt_chan_blob_send`. -/
def blobCopy : List Byte → Script (Shared n V) Bool
  | [] => pure true
  | b :: buf => do
    let r ← respRoom true
    if r = .room then
      respPush b
      blobCopy buf
    else pure false

/-- One round of its wait for full delivery. -/
def blobDrainRound (spins : ℕ) : Script (Shared n V) (ℕ ⊕ Bool) := do
  let c ← now
  if c.resp.IsEmpty ∧ c.served = c.ack then return .inr true
  else
    let c ← now
    if c.resetReq then return .inr false
    else
      let c ← now
      mgmtChanPublish
      let c' ← now
      if c'.ack ≠ c.ack then return .inl 0
      else if mgmtSpinMax ≤ spins + 1 then
        latchOverflow
        return .inr false
      else return .inl (spins + 1)

def mgmtChanBlobSend (buf : List Byte) : Script (Shared n V) Bool := do
  let c ← now
  if c.overflow ∨ c.resetReq = true then pure false
  else
    let copied ← blobCopy buf
    if copied then .iterate blobDrainRound 0 else pure false

def mgmtChanCmdPop : Script (Shared n V) (Option Byte) := do
  let c ← now
  if c.cmd.IsEmpty then pure none
  else
    let c ← now
    onChan fun c => { c with cmd := c.cmd.pop }
    pure (some c.cmd.peek)

/-- Every store of the reset that core 1 or the Victor can see is an action of its own. -/
def mgmtChanTakeReset : Script (Shared n V) Bool := do
  let c ← now
  if ¬ c.resetReq then pure false
  else
    onChan fun c => { c with resp := c.resp.clear, served := c.ack }
    let c ← now
    onChan fun d => { d with cmd := d.cmd.seek c.cmd.head c.cmd.head_lt }
    onChan fun c =>
      { c with cmdDropSeen := c.cmdDrop, overflow := false, cmdFull := false, respReady := false }
    onChan fun c => { c with resetReq := false }
    onChan fun c => c.statusStore
    onChan fun c => { c with cmdEcho := 0xFF }
    pure true

def ackSpinRound (spins : ℕ) : Script (Shared n V) (ℕ ⊕ Unit) := do
  let c ← now
  if c.served ≠ c.ack ∧ spins + 1 < mgmtPumpAckSpin then return .inl (spins + 1)
  else return .inr ()

def pumpRound (i : ℕ) : Script (Shared n V) (ℕ ⊕ Unit) := do
  if mgmtPumpBurst ≤ i then return .inr ()
  else
    mgmtChanPublish
    let c ← now
    if c.served = c.ack then return .inr ()
    else
      Script.iterate ackSpinRound 0
      let c ← now
      if c.served ≠ c.ack then return .inr () else return .inl (i + 1)

def mgmtChanPump : Script (Shared n V) Unit := do
  let c ← now
  if c.cmdDrop ≠ c.cmdDropSeen then
    onChan fun c => { c with cmdDropSeen := c.cmdDrop, cmdFull := true }
  let c ← now
  if c.cmd.IsEmpty then
    onChan fun c => { c with cmdFull := false }
  Script.iterate pumpRound 0
  onChan fun c => c.statusStore

end PicoV9k.Mgmt
