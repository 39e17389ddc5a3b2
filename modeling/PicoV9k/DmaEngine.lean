import PicoV9k.InterleavedScript
import PicoV9k.PioMachine
import PicoV9k.DmaRegisters

/-!
# The DMA engine

`dma_write_to_victor_ram` and `dma_read_from_victor_ram` of `dma.c` with the PIO
program `dma_master` they feed. The C code is a script; between any two of its
actions the state machine executes instructions, the clocks run, the 8088 answers
HOLD and, while it has the bus, writes its memory.
-/
namespace PicoV9k.Dma
open PicoV9k.Bus PicoV9k.Pio PicoV9k.Scripts

abbrev dmaBatchSize : ℕ := 128

abbrev readyPin : ℕ := 28
abbrev clock5Pin : ℕ := 30
abbrev clock15bPin : ℕ := 31

abbrev addressBusSize : ℕ := 20
abbrev dataSize : ℕ := 8

def dmaMaster : Program where
  code := [
    .pull,                               -- T0
    .out .x 1,
    .mov .pindirs true .null,
    .out .pins addressBusSize,
    .mov .pindirs true .null,
    .pull,
    .wait true clock5Pin,
    .wait false clock5Pin,
    .set .pins 0b1111,                   -- T1
    .wait true clock5Pin,
    .wait true clock15bPin,
    .set .pins 0b0111,                   -- T2
    .wait true clock15bPin,
    .jmp .xZero 21,
    .out .pins addressBusSize,           -- T2_WRITE
    .set .pins 0b0101,
    .wait true readyPin,
    .wait true clock5Pin,                -- T3_WRITE
    .wait false clock5Pin,
    .wait true clock15bPin,              -- T4
    .set .pins 0b0111,
    .set .pins 0b0010,                   -- T2_READ
    .out .pindirs addressBusSize,
    .wait true readyPin,
    .wait true clock5Pin,                -- T3_Read
    .wait false clock5Pin,
    .shiftIn .pins dataSize,
    .jmp .always 19].map (·, 0)
  wrapTarget := 0
  wrap := 20
  shiftInRight := false
  autopush := true
  jmpPin := 0

/-- The SET group: RD/, WR/, DT/R and ALE. -/
abbrev rdBit : ℕ := 0
abbrev wrBit : ℕ := 1
abbrev aleBit : ℕ := 3

/-- A bus cycle, from the moment its strobe falls: the latched address, the twenty lines as they are
driven, and the byte of a read. The low eight lines carry the byte of a write. -/
inductive BusCycle
  | write (latched driven : BitVec 20)
  | read (latched driven : BitVec 20) (byte : Byte)
  deriving DecidableEq, Repr

/-- A call of one of the two functions; `data` may be NULL. -/
structure Call where
  write : Bool
  data : Option (ℕ → Byte)
  length : Word
  start : Word

inductive Pin
  | clock5 | hlda
  deriving DecidableEq

/-- The waits that have a deadline; the last two only log it. -/
inductive Wait
  | clock5 | hlda | txFull | rxEmpty | drain | releaseClock5 | releaseHlda
  deriving DecidableEq, Repr

/-- What a call did: its result, the buffer after it, the words of each bus tenure, the bus cycles,
the waits that timed out and the instructions at which the state machine resumed. -/
structure Entry where
  call : Call
  ok : Bool
  data : ℕ → Byte
  tenures : List (List Word)
  cycles : List BusCycle
  timeouts : List Wait
  resumes : List ℕ

/-- The card. `strobes` tells whether RD/, WR/ and ALE follow the state machine, `granted` whether
HLDA was seen since HOLD was asserted; from `tenure` on there is a record of the present call. -/
structure Card where
  sm : Sm
  smEnabled : Bool
  strobes : Bool
  latch : BitVec 20
  regEnabled : Bool
  regFifos : List Word
  fifoPendingPrefetch : ℕ
  hold : Bool
  granted : Bool
  tenure : List Word
  tenures : List (List Word)
  cycles : List BusCycle
  timeouts : List Wait
  resumes : List ℕ
  history : List Entry

/-- The card and what it sees of the Victor; `late` is the answer of the clock to the next look at
a deadline. -/
structure Engine where
  card : Card
  clock5 : Bool
  hlda : Bool
  late : Bool
  ram : BitVec 20 → Byte

def Engine.level (s : Engine) : Pin → Bool
  | .clock5 => s.clock5
  | .hlda => s.hlda

def fell (bit : ℕ) (before after : Word) : Bool := before.getLsbD bit && !after.getLsbD bit

/-- The pads follow the state machine: ALE opens the address latch, a falling strobe starts a
cycle. -/
def Engine.drive (s : Engine) (sm : Sm) : Engine :=
  let driven := sm.outPins.setWidth 20
  if s.card.strobes then
    let latch := if sm.setPins.getLsbD aleBit then driven else s.card.latch
    let writes := fell wrBit s.card.sm.setPins sm.setPins
    let reads := fell rdBit s.card.sm.setPins sm.setPins
    { s with
      card := { s.card with
        sm := sm
        latch := latch
        cycles := s.card.cycles ++ (if writes then [.write latch driven] else []) ++
          (if reads then [.read latch driven (s.ram latch)] else []) }
      ram := if writes then Function.update s.ram latch (driven.setWidth 8) else s.ram }
  else { s with card := { s.card with sm := sm } }

/-- While RD/ is low the memory drives the data lines. -/
def Engine.dataLines (s : Engine) (noise : Byte) : Byte :=
  if s.card.sm.setPins.getLsbD rdBit then noise else s.ram s.card.latch

/-- What the code does not do: the state machine executes an instruction, the clock and the
deadlines move, the 8088 follows HOLD or writes its memory. -/
inductive Event
  | pio (gpio : ℕ → Bool) (noise : Byte)
  | clock5 (level : Bool)
  | time (late : Bool)
  | hlda (level : Bool)
  | cpu (address : BitVec 20) (byte : Byte)

def Engine.event (s : Engine) : Event → Option Engine
  | .pio gpio noise =>
    if s.card.smEnabled then
      (s.card.sm.step dmaMaster ⟨(s.dataLines noise).setWidth 32, gpio⟩).map s.drive
    else none
  | .clock5 level => some { s with clock5 := level }
  | .time late => some { s with late := late }
  | .hlda level => if s.card.hold = level then some { s with hlda := level } else none
  | .cpu address byte =>
    if s.hlda then none else some { s with ram := Function.update s.ram address byte }

abbrev Code := Script Engine

def update (g : Card → Card) : Code Unit := Script.modify fun s => { s with card := g s.card }

def Card.logTimeout (c : Card) (wait : Wait) : Card := { c with timeouts := c.timeouts ++ [wait] }

/-- `absolute_time_diff_us(get_absolute_time(), deadline) <= 0`. -/
def deadlinePassed (wait : Wait) : Code Bool :=
  Script.act (fun s => (s.late, if s.late then { s with card := s.card.logTimeout wait } else s))
    Script.ret

/-- `while (!ready) if (late) return false;` -/
def pollUntil (ready : Engine → Bool) (wait : Wait) : Code Bool :=
  Script.iterate (fun _ : Unit => do
    let now ← Script.read ready
    if now then pure (.inr true)
    else do
      let late ← deadlinePassed wait
      pure (if late then .inr false else .inl ())) ()

def waitForPinLevel (pin : Pin) (level : Bool) (wait : Wait) : Code Bool :=
  pollUntil (fun s => s.level pin = level) wait

def waitForClock5RisingEdge (wait : Wait) : Code Bool := do
  let fallen ← waitForPinLevel .clock5 false wait
  if fallen then waitForPinLevel .clock5 true wait else pure false

def Card.assertHold (c : Card) : Card := { c with hold := true, granted := false }

def Card.releaseHold (c : Card) : Card := { c with hold := false, granted := false }

def obtainDmaMaster : Code Bool := do
  let clocked ← waitForClock5RisingEdge .clock5
  if clocked then do
    update Card.assertHold
    let hlda ← waitForPinLevel .hlda true .hlda
    if hlda then do
      update fun c => { c with granted := true }
      pure true
    else do
      update Card.releaseHold
      pure false
  else pure false

/-- The register state machine is stopped and its FIFOs are cleared. -/
def Card.quiesceRegisters (c : Card) : Card := { c with regEnabled := false, regFifos := [] }

/-- `setup_pins_dma_control`: the strobes inactive, ALE low, the address lines driven to zero. -/
def Card.setupPinsDmaControl (c : Card) : Card :=
  { c with
    strobes := true
    sm := { c.sm with setPins := 0b0111, outPins := 0, outDirs := 0xFFFFF } }

def Card.clearFifos (c : Card) : Card := { c with sm := { c.sm with tx := [], rx := [] } }

/-- `pio_sm_set_enabled(.., true)`: the state machine goes on where it stands. -/
def Card.enable (c : Card) : Card :=
  { c with smEnabled := true, tenure := [], resumes := c.resumes ++ [c.sm.pc] }

def startDmaControl : Code Bool := do
  let obtained ← obtainDmaMaster
  if obtained then do
    update Card.quiesceRegisters
    update Card.setupPinsDmaControl
    update Card.clearFifos
    update Card.enable
    pure true
  else pure false

def Card.parkStrobes (c : Card) : Card := { c with strobes := false }

def Card.disable (c : Card) : Card :=
  { c with smEnabled := false, tenures := c.tenures ++ [c.tenure], tenure := [] }

/-- `reset_register_pio_sm`. -/
def Card.resetRegisterPioSm (c : Card) : Card :=
  { c with regEnabled := true, regFifos := [], fifoPendingPrefetch := 0 }

def restoreRegisterBusAfterDma : Code Unit := do
  update Card.parkStrobes
  update Card.disable
  update Card.clearFifos
  let _ ← waitForClock5RisingEdge .releaseClock5
  update Card.resetRegisterPioSm
  update Card.releaseHold
  let _ ← waitForPinLevel .hlda false .releaseHlda
  pure ()

def abortDmaTransfer : Code Unit := restoreRegisterBusAfterDma

def releaseDmaMaster : Code Unit := restoreRegisterBusAfterDma

/-- `pio_sm_put`: a full FIFO drops the word. -/
def Card.put (c : Card) (word : Word) : Card :=
  if c.sm.tx.length < fifoDepth then
    { c with sm := { c.sm with tx := c.sm.tx ++ [word] }, tenure := c.tenure ++ [word] }
  else c

def pioSmPutTimeout (word : Word) : Code Bool := do
  let room ← pollUntil (fun s => s.card.sm.tx.length < fifoDepth) .txFull
  if room then do
    update (Card.put · word)
    pure true
  else pure false

/-- `pio_sm_get`. -/
def pioSmGet : Code Word :=
  Script.act (fun s => (s.card.sm.rx.headD 0,
    { s with card := { s.card with sm := { s.card.sm with rx := s.card.sm.rx.tail } } })) Script.ret

def pioSmGetTimeout : Code (Option Word) := do
  let present ← pollUntil (fun s => s.card.sm.rx ≠ []) .rxEmpty
  if present then do
    let word ← pioSmGet
    pure (some word)
  else pure none

def victorAddr (start : Word) (index : ℕ) : Word := (start + BitVec.ofNat 32 index) &&& 0xFFFFF

def fifoT1 (addr : Word) (write : Bool) : Word :=
  ((addr &&& 0xFFFFF) <<< 1) ||| (if write then 1 else 0)

def fifoT2Write (addr : Word) (byte : Byte) : Word := (addr &&& 0xFFF00) ||| byte.setWidth 32

def fifoT2Read : Word := 0xFFF00

/-- `(length + (DMA_BATCH_SIZE - 1)) / DMA_BATCH_SIZE` in 32 bits. -/
def fullBatchCount (length : Word) : ℕ := ((length + 127) / 128).toNat

/-- `(batch * DMA_BATCH_SIZE) + i` in 32 bits. -/
def batchIndex (batch i : ℕ) : ℕ := (batch * dmaBatchSize + i) % 2 ^ 32

/-- `sleep_us(3)`: long enough for the last cycle to complete. -/
def settle : Code Unit :=
  Script.iterate (fun _ : Unit => do
    let rested ← Script.read fun s => decide (s.card.sm.Starved dmaMaster)
    pure (if rested then .inr () else .inl ())) ()

/-- The loop over one batch, with `pio_stuck` as its result. -/
def writeBatch (data : ℕ → Byte) (length start : Word) (batch : ℕ) : Code Bool :=
  Script.iterate (fun i : ℕ =>
    if i < dmaBatchSize then
      let index := batchIndex batch i
      if length.toNat ≤ index then pure (.inr false)
      else do
        let addr := victorAddr start index
        let first ← pioSmPutTimeout (fifoT1 addr true)
        if first then do
          let second ← pioSmPutTimeout (fifoT2Write addr (data index))
          pure (if second then .inl (i + 1) else .inr true)
        else pure (.inr true)
    else pure (.inr false)) 0

def dmaWriteToVictorRam (data : Option (ℕ → Byte)) (length start : Word) : Code Bool :=
  match data with
  | none => pure false
  | some data =>
    if length = 0 then pure true
    else Script.iterate (fun batch : ℕ =>
      if batch < fullBatchCount length then do
        let started ← startDmaControl
        if started then do
          let pioStuck ← writeBatch data length start batch
          if pioStuck then do
            abortDmaTransfer
            pure (.inr false)
          else do
            let drained ← pollUntil (fun s => s.card.sm.tx = []) .drain
            if drained then do
              settle
              releaseDmaMaster
              pure (.inl (batch + 1))
            else do
              abortDmaTransfer
              pure (.inr false)
        else pure (.inr false)
      else pure (.inr true)) 0

/-- The loop over one batch, with `pio_stuck` and the buffer as its result. -/
def readBatch (data : ℕ → Byte) (length start : Word) (batch : ℕ) : Code (Bool × (ℕ → Byte)) :=
  Script.iterate (fun loc : ℕ × (ℕ → Byte) =>
    let i := loc.1
    let data := loc.2
    if i < dmaBatchSize then
      let index := batchIndex batch i
      if length.toNat ≤ index then pure (.inr (false, data))
      else do
        let addr := victorAddr start index
        let first ← pioSmPutTimeout (fifoT1 addr false)
        if first then do
          let second ← pioSmPutTimeout fifoT2Read
          if second then do
            let charData ← pioSmGetTimeout
            pure (match charData with
              | some word => .inl (i + 1, Function.update data index (word.setWidth 8))
              | none => .inr (true, data))
          else pure (.inr (true, data))
        else pure (.inr (true, data))
    else pure (.inr (false, data))) (0, data)

def dmaReadFromVictorRam (data : Option (ℕ → Byte)) (length start : Word) :
    Code (Bool × (ℕ → Byte)) :=
  match data with
  | none => pure (false, fun _ => 0)
  | some data =>
    if length = 0 then pure (true, data)
    else Script.iterate (fun loc : ℕ × (ℕ → Byte) =>
      let batch := loc.1
      let data := loc.2
      if batch < fullBatchCount length then do
        let started ← startDmaControl
        if started then do
          let (pioStuck, data) ← readBatch data length start batch
          if pioStuck then do
            abortDmaTransfer
            pure (.inr (false, data))
          else do
            let drained ← pollUntil (fun s => s.card.sm.rx = []) .drain
            if drained then do
              settle
              releaseDmaMaster
              pure (.inl (batch + 1, data))
            else do
              abortDmaTransfer
              pure (.inr (false, data))
        else pure (.inr (false, data))
      else pure (.inr (true, data))) (0, data)

def Card.begin (c : Card) : Card :=
  { c with tenure := [], tenures := [], cycles := [], timeouts := [], resumes := [] }

def Card.record (c : Card) (call : Call) (ok : Bool) (data : ℕ → Byte) : Card :=
  { c with history := c.history ++
    [⟨call, ok, data, c.tenures, c.cycles, c.timeouts, c.resumes⟩] }

/-- One call, with its record. -/
def callBody (call : Call) : Code Unit := do
  update Card.begin
  if call.write then do
    let ok ← dmaWriteToVictorRam call.data call.length call.start
    update (Card.record · call ok (call.data.getD fun _ => 0))
  else do
    let (ok, data) ← dmaReadFromVictorRam call.data call.length call.start
    update (Card.record · call ok data)

/-- The state machine as `dma_master_program_init` leaves it. -/
def Sm.initial : Sm :=
  ⟨0, 0, 0, 0, 0, [], [], 0, 0, 0⟩

def Card.initial : Card where
  sm := Sm.initial
  smEnabled := false
  strobes := false
  latch := 0
  regEnabled := true
  regFifos := []
  fifoPendingPrefetch := 0
  hold := false
  granted := false
  tenure := []
  tenures := []
  cycles := []
  timeouts := []
  resumes := []
  history := []

def Engine.initial : Engine := ⟨Card.initial, false, false, false, fun _ => 0⟩

/-- The engine between its calls and the bus. -/
def engineStep : Machine Engine → Move Call Event → Option (Machine Engine) :=
  Machine.step callBody Engine.event

end PicoV9k.Dma
