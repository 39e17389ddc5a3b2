import PicoV9k.PioMachine
import PicoV9k.RegisterIsr
import PicoV9k.TransitionRun

/-!
# The register port

The PIO program `board_registers` between the 8088 and the interrupt handler. It
samples the address of every bus cycle, announces a cycle in the window to the
handler, holds the 8088 in wait states until a byte comes back and reports the
end of the cycle. The handler takes the words of the receive FIFO one by one, as
late as it likes.
-/
namespace PicoV9k.Port
open PicoV9k.Bus PicoV9k.Pio PicoV9k.Sasi

abbrev clock5Pin : ℕ := 30
abbrev alePin : ℕ := 24
abbrev rdPin : ℕ := 21
abbrev readyPin : ℕ := 28

abbrev addressBusSize : ℕ := 20
abbrev registerSize : ℕ := 12
abbrev dataSize : ℕ := 8

abbrev fifoRegPrefetch : Word := 0
abbrev fifoRegReadCommit : Word := 1
abbrev fifoRegWrite : Word := 2

/-- The side-set values: bit 1 drives EXTIO/, bit 0 drives XACK/. -/
abbrev sNone : BitVec 2 := 0b00
abbrev sExtio : BitVec 2 := 0b10
abbrev sXack : BitVec 2 := 0b01
abbrev sBoth : BitVec 2 := 0b11

def boardRegisters : Program where
  code := [
    (.pull, sNone),
    (.out .y registerSize, sNone),
    (.mov .isr false .null, sNone),               -- T0
    (.mov .pindirs false .null, sNone),
    (.wait false clock5Pin, sNone),
    (.wait false alePin, sNone),                  -- T1
    (.wait true alePin, sNone),
    (.nop, sNone),
    (.shiftIn .pins addressBusSize, sNone),
    (.mov .osr false .isr, sNone),
    (.shiftIn .null 20, sNone),
    (.mov .x false .isr, sNone),
    (.jmp .xNeY 2, sNone),
    (.mov .isr false .osr, sXack),
    (.set .x fifoRegPrefetch, sXack),
    (.shiftIn .x 2, sXack),
    (.push, sXack),                               -- T2
    (.mov .isr false .osr, sXack),
    (.pull, sXack),
    (.jmp .pin 27, sXack),
    (.out .pins dataSize, sBoth),                 -- T3_READ
    (.out .pindirs dataSize, sBoth),
    (.wait true rdPin, sExtio),
    (.set .x fifoRegReadCommit, sExtio),
    (.nop, sExtio),
    (.shiftIn .x 2, sExtio),
    (.push, sNone),                               -- T4
    (.wait true readyPin, sExtio),                -- T3_WRITE
    (.set .x fifoRegWrite, sExtio),
    (.shiftIn .pins dataSize, sExtio),
    (.shiftIn .x 2, sExtio),
    (.jmp .always 26, sNone)]
  wrapTarget := 2
  wrap := 26
  shiftInRight := true
  autopush := false
  jmpPin := rdPin

/-- `DMA_REGISTER_BITMASK`, which `dma_board.c` puts into the FIFO once. -/
abbrev dmaRegisterBitmask : Word := 0xEF3

/-- A word of the receive FIFO, decoded with its full address. -/
inductive FifoWord
  | prefetch (address : ℕ)
  | readCommit (address : ℕ)
  | write (address : ℕ) (data : Byte)
  | unknown
  deriving DecidableEq, Repr

def FifoWord.ofRaw (raw : Word) : FifoWord :=
  match fifoPayloadType raw with
  | 0 => .prefetch (boardFifoReadAddress raw)
  | 1 => .readCommit (boardFifoReadAddress raw)
  | 2 => .write (dmaFifoWriteAddress raw) (dmaFifoWriteData raw)
  | _ => .unknown

/-- A bus cycle of the 8088; one without a written byte reads. -/
structure Cycle where
  address : BitVec 20
  written : Option Byte
  deriving DecidableEq, Repr

/-- The cycle is in `0xEF300`-`0xEF3FF`. -/
def Cycle.Matched (c : Cycle) : Prop :=
  dmaRegisterBase ≤ c.address.toNat ∧ c.address.toNat < dmaRegisterBase + 0x100

instance (c : Cycle) : Decidable c.Matched := inferInstanceAs (Decidable (_ ∧ _))

/-- The word that ends a cycle. -/
def Cycle.final (c : Cycle) : FifoWord :=
  match c.written with
  | some byte => .write c.address.toNat byte
  | none => .readCommit c.address.toNat

/-- Nothing is on the bus, the address with ALE high, or the data with the strobe low. -/
inductive BusPhase
  | idle
  | address (c : Cycle)
  | transfer (c : Cycle)
  deriving DecidableEq, Repr

/-- What the port records: a cycle that begins, a word for the handler, a byte from the handler and
the state machine taking it. -/
inductive Happening
  | begun (c : Cycle)
  | pushed (word : FifoWord)
  | supplied (payload : Word)
  | consumed (payload : Word)
  deriving DecidableEq, Repr

/-- The state machine, the bus and core 1; `irq` is the word the handler is at. -/
structure RegisterPort (σ : Type) (n : ℕ) where
  sm : Sm
  bus : BusPhase
  clock5 : Bool
  ready : Bool
  bridge : Bridge σ n
  irq : Option Word
  log : List Happening

variable {σ : Type} {n : ℕ}

/-- The lines from BD0 up; `noise` is whatever nobody defines. -/
def BusPhase.lines (noise : Word) : BusPhase → Word
  | .address c => c.address.setWidth 32 ||| noise <<< 20
  | .transfer ⟨_, some byte⟩ => byte.setWidth 32 ||| noise <<< 8
  | _ => noise

def BusPhase.ale : BusPhase → Bool
  | .address _ => true
  | _ => false

/-- RD/ is low while a read transfers. -/
def BusPhase.rd : BusPhase → Bool
  | .transfer ⟨_, none⟩ => false
  | _ => true

def RegisterPort.gpio (s : RegisterPort σ n) (pin : ℕ) : Bool :=
  if pin = clock5Pin then s.clock5
  else if pin = alePin then s.bus.ale
  else if pin = rdPin then s.bus.rd
  else s.ready

def RegisterPort.inputs (s : RegisterPort σ n) (noise : Word) : Inputs :=
  ⟨s.bus.lines noise, s.gpio⟩

/-- XACK/ is driven: the 8088 is held in wait states. -/
def RegisterPort.xack (s : RegisterPort σ n) : Bool := (boardRegisters.side s.sm.pc).getLsbD 0

/-- The words the handler has not finished with. -/
def RegisterPort.queue (s : RegisterPort σ n) : List Word := s.irq.toList ++ s.sm.rx

/-- What the state machine leaves in the record; the two instructions that run once do not count. -/
def RegisterPort.recorded (s : RegisterPort σ n) (sm : Sm) : List Happening :=
  match (boardRegisters.code[s.sm.pc]?).map Prod.fst with
  | some .push => [.pushed (.ofRaw s.sm.isr)]
  | some .pull => if boardRegisters.wrapTarget ≤ s.sm.pc then [.consumed sm.osr] else []
  | _ => []

def RegisterPort.drive (s : RegisterPort σ n) (sm : Sm) : RegisterPort σ n :=
  { s with sm := sm, log := s.log ++ s.recorded sm }

/-- The handler reads `rxf`. -/
def RegisterPort.take (s : RegisterPort σ n) : Option (RegisterPort σ n) :=
  match s.irq, s.sm.rx with
  | none, w :: rx => some { s with irq := some w, sm := { s.sm with rx := rx } }
  | _, _ => none

/-- `(0xFF << 8) | (data & 0xFF)`: the byte and eight output directions. -/
def payload (data : Byte) : Word := 0xFF <<< 8 ||| data.setWidth 32

/-- `pio_sm_put_isr_safe`: a full FIFO drops the word. -/
def RegisterPort.putIsrSafe (s : RegisterPort σ n) (word : Word) : RegisterPort σ n :=
  if s.sm.tx.length < fifoDepth then
    { s with sm := { s.sm with tx := s.sm.tx ++ [word] }, log := s.log ++ [.supplied word] }
  else s

/-- The handler finishes the word it is at. -/
def RegisterPort.serve (s : RegisterPort σ n) : Option (RegisterPort σ n) :=
  s.irq.map fun w =>
    let (bridge, data) := s.bridge.isr (.ofRaw w)
    let s := { s with bridge := bridge, irq := none }
    match data with
    | some data => s.putIsrSafe (payload data)
    | none => s

/-- The handler alone makes its next move, if it has one. -/
def RegisterPort.handler (s : RegisterPort σ n) : RegisterPort σ n := (s.serve <|> s.take).getD s

inductive Move (σ : Type) (n : ℕ)
  | sm (noise : Word)
  | take
  | serve
  | begin (c : Cycle)
  | strobe
  | finish
  | clock5 (level : Bool)
  | ready (level : Bool)
  | core1 (bridge : Bridge σ n)

/-- ALE rises while CLK5 is low; READY rises only after XACK/ was released, and a cycle ends with
READY. The rest of core 1 leaves the count of prefetches alone. -/
def RegisterPort.step (s : RegisterPort σ n) : Move σ n → Option (RegisterPort σ n)
  | .sm noise => (s.sm.step boardRegisters (s.inputs noise)).map s.drive
  | .take => s.take
  | .serve => s.serve
  | .begin c =>
    if s.bus = .idle ∧ s.clock5 = false then
      some { s with bus := .address c, log := s.log ++ [.begun c] }
    else none
  | .strobe => match s.bus with
    | .address c => some { s with bus := .transfer c }
    | _ => none
  | .finish => match s.bus with
    | .transfer _ => if s.ready ∧ ¬ s.xack then some { s with bus := .idle } else none
    | _ => none
  | .clock5 level => some { s with clock5 := level }
  | .ready level => if level ∧ s.xack then none else some { s with ready := level }
  | .core1 bridge =>
    if bridge.pendingPrefetch = s.bridge.pendingPrefetch then some { s with bridge := bridge } else none

/-- The state machine has nothing to do until one of its inputs changes. -/
def RegisterPort.Rests (s : RegisterPort σ n) : Prop := s.sm.step boardRegisters (s.inputs 0) = none

instance (s : RegisterPort σ n) : Decidable s.Rests :=
  decidable_of_iff ((s.sm.step boardRegisters (s.inputs 0)).isNone) Option.isNone_iff_eq_none

/-- The state machine is much faster than the 8088: a cycle begins and ends only when it rests, and
the address stays until it was sampled. RD/ tells reads from writes when it is looked at. -/
def RegisterPort.InTime (s : RegisterPort σ n) : Move σ n → Prop
  | .begin _ | .finish => s.Rests
  | .strobe => s.sm.pc < 6 ∨ 8 < s.sm.pc
  | .sm _ => s.sm.pc = 19 → s.bus.ale = false
  | _ => True

instance (s : RegisterPort σ n) : ∀ m : Move σ n, Decidable (s.InTime m)
  | .sm _ => inferInstanceAs (Decidable (_ → _))
  | .take => inferInstanceAs (Decidable True)
  | .serve => inferInstanceAs (Decidable True)
  | .begin _ => inferInstanceAs (Decidable s.Rests)
  | .strobe => inferInstanceAs (Decidable (_ ∨ _))
  | .finish => inferInstanceAs (Decidable s.Rests)
  | .clock5 _ => inferInstanceAs (Decidable True)
  | .ready _ => inferInstanceAs (Decidable True)
  | .core1 _ => inferInstanceAs (Decidable True)

/-- The state machine is about to run: after power-up with the mask in its FIFO, or after
`reset_register_pio_sm`. -/
structure RegisterPort.Started (s : RegisterPort σ n) : Prop where
  sm : s.sm.pc = 0 ∧ s.sm.tx = [dmaRegisterBitmask] ∨
    s.sm.pc = boardRegisters.wrapTarget ∧ s.sm.tx = [] ∧ s.sm.y = dmaRegisterBitmask
  rx : s.sm.rx = []
  irq : s.irq = none
  pending : s.bridge.pendingPrefetch = 0
  log : s.log = []

end PicoV9k.Port
