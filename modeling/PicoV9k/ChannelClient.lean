import PicoV9k.CommandRing
import PicoV9k.VtParser
import PicoV9k.WatchedScript

/-!
# The Victor client on the channel

`dmaterm.c`, `main` and `session_settle`, one bus access at a time, with the keyboard as its
input; the spin limit of `session_settle` is left out. A ledger beside it stamps every byte that
enters a buffer with the number of resets then written (commands) or serviced (responses), and
notes the stamps again where the bytes come out.
-/
namespace PicoV9k.Dmaterm
open PicoV9k.Bus PicoV9k.Rings PicoV9k.Mgmt PicoV9k.Scripts

/-- `line[6]` and `llen`. -/
structure Shadow where
  line : ℕ → Byte
  llen : ℕ

/-- The shadowed line reads "exit". -/
def Shadow.Exits (s : Shadow) : Prop :=
  s.llen = 4 ∧ s.line 0 ||| 0x20 = 0x65 ∧ s.line 1 ||| 0x20 = 0x78 ∧ s.line 2 ||| 0x20 = 0x69 ∧
    s.line 3 ||| 0x20 = 0x74

instance (s : Shadow) : Decidable s.Exits := inferInstanceAs (Decidable (_ ∧ _))

def Shadow.key (s : Shadow) (c : Byte) : Shadow :=
  if c = 0x0D then { s with llen := 0 }
  else if c = 0x08 ∨ c = 0x7F then { s with llen := s.llen - 1 }
  else if s.llen < 5 then ⟨Function.update s.line s.llen c, s.llen + 1⟩ else s

/-- What a key makes the main loop do: leave it, start over, or write some bytes to CMD. -/
inductive Pressed
  | quit
  | again
  | send (bytes : List Byte)

/-- A Z-19 key, sent as VT100. -/
def navKeys (d : Byte) : List Byte :=
  if d = 0x41 ∨ d = 0x42 ∨ d = 0x43 ∨ d = 0x44 then [0x1B, 0x5B, d]
  else if d = 0x48 then [0x1B, 0x5B, 0x48]
  else if d = 0x4B then [0x1B, 0x5B, 0x46]
  else [0x1B, d]

/-- The keyboard branch of the main loop; `next` is what the typeahead holds behind `c`. -/
def press (hidden : Bool) (shadow : Shadow) (c : Byte) (next : Option Byte) : Pressed × Shadow :=
  if c = 0 then (.send [], shadow)
  else if c = 0x03 then (.quit, shadow)
  else if c = 0x1B then
    match next with
    | some d => (if hidden then .send (navKeys d) else .again, shadow)
    | none => (.send (if hidden then [0x1B] else []), shadow)
  else if c = 0xE4 ∨ c = 0xE5 then
    (.send (if hidden then [0x1B, 0x5B, if c = 0xE4 then 0x35 else 0x36, 0x7E] else []), shadow)
  else if 0x80 ≤ c then (.send [], shadow)
  else if hidden then (.send [c], shadow)
  else if c = 0x0D ∧ shadow.Exits then (.quit, shadow)
  else (.send [c], shadow.key c)

/-- The next bus access of the client. -/
inductive Mode
  /-- Write the probe value to CMD. -/
  | probe (value : Byte)
  /-- Read its complement back. -/
  | probed (value : Byte)
  /-- Read the signature nibble, twice. -/
  | signature (again : Bool)
  /-- Write STATUS; the first settle opens the session, a later one recovers from an overflow. -/
  | settle (first : Bool)
  /-- Read CMD until it is 0xFF. -/
  | waiting (first : Bool)
  /-- Read STATUS to seed `last_phase`. -/
  | seeding (first : Bool)
  /-- Write the CR that opens the session. -/
  | opening
  /-- The top of the main loop: a key, or the read that decides everything. -/
  | top
  /-- Write what is left of a key to CMD, then as `top` without a key. -/
  | sending (keys : List Byte)
  /-- Read the RESP byte announced under `phase`. -/
  | grab (drained : ℕ) (phase : Bool)
  /-- Read it again until two reads agree. -/
  | regrab (drained : ℕ) (phase : Bool) (d : Byte)
  /-- Acknowledge it. -/
  | ack (drained : ℕ) (phase : Bool) (d : Byte)
  /-- Read STATUS for the next byte of the burst. -/
  | more (drained : ℕ)
  | gone
  deriving DecidableEq

structure Client where
  mode : Mode
  lastPhase : Bool
  term : Terminal.Client
  shadow : Shadow

/-- The stamps of the bytes in the buffers, of those core 0 holds between two of its stores, and
of those that have come out. -/
structure Ledger where
  /-- STATUS writes. -/
  settles : ℕ
  /-- Resets serviced. -/
  serviced : ℕ
  /-- The last byte written to CMD. -/
  lastCmd : Byte
  /-- Something has been written to CMD since the last STATUS write. -/
  typed : Bool
  /-- The command ring. -/
  queued : List ℕ
  /-- Bytes out of the ring, not yet recorded as popped. -/
  lifted : List ℕ
  /-- Bytes popped, each with the resets serviced by then. -/
  consumed : List (ℕ × ℕ)
  /-- Bytes flushed, each with the number of the reset that did it. -/
  flushed : List (ℕ × ℕ)
  /-- The response FIFO. -/
  fifo : List ℕ
  /-- Bytes out of the FIFO, not yet announced. -/
  staged : List ℕ
  /-- The byte announced last. -/
  cell : ℕ
  /-- Bytes the client took, each with the resets written by then. -/
  taken : List (ℕ × ℕ)

structure Session where
  client : Client
  ledger : Ledger

variable {n : ℕ} {K : Type}

/-- What an action of core 0 that leads from `s` to `s'` adds. A byte leaves a buffer where its
length falls, and enters the FIFO where that grows; the console records a pop, the channel turns
its phase over for an announcement, and a reset ends by clearing the request. -/
def Ledger.observe (s s' : Shared n (Desk K)) (l : Ledger) : Ledger :=
  let lifted := l.lifted ++ l.queued.take (s.chan.cmd.length - s'.chan.cmd.length)
  let staged := l.staged ++ l.fifo.take (s.chan.resp.length - s'.chan.resp.length)
  let popped := s.side.popped.length < s'.side.popped.length
  let announced := s.chan.phase ≠ s'.chan.phase
  let reset := s.chan.resetReq = true ∧ s'.chan.resetReq = false
  { l with
    serviced := if reset then l.serviced + 1 else l.serviced
    queued := l.queued.drop (s.chan.cmd.length - s'.chan.cmd.length)
    lifted := if popped ∨ reset then [] else lifted
    consumed := l.consumed ++ if popped then lifted.map fun t => (t, l.serviced) else []
    flushed := l.flushed ++ if reset then lifted.map fun t => (t, l.serviced + 1) else []
    fifo := l.fifo.drop (s.chan.resp.length - s'.chan.resp.length) ++
      List.replicate (s'.chan.resp.length - s.chan.resp.length) l.serviced
    staged := if announced ∨ reset then [] else staged
    cell := if announced then staged.getLastD l.cell else l.cell }

def Session.observe (s s' : Shared n (Desk K)) (r : Session) : Session :=
  { r with ledger := r.ledger.observe s s' }

/-- The console and the client, with the ledger between them. -/
abbrev World (n : ℕ) (K : Type) := Watched (Shared n (Desk K)) Session

namespace World

abbrev chan (x : World n K) : MgmtChan n := x.shared.chan
abbrev mode (x : World n K) : Mode := x.record.client.mode
abbrev ledger (x : World n K) : Ledger := x.record.ledger

def goto (x : World n K) (mode : Mode) : World n K :=
  { x with record := { x.record with client := { x.record.client with mode := mode } } }

/-- A write to CMD. -/
def writeCmd (x : World n K) (data : Byte) (mode : Mode) : World n K where
  shared :=
    { chan := (mgmtChanRegWrite x.chan .mgmtCmd data).1
      side := x.shared.side.note (decide x.chan.cmd.IsFull) data }
  record :=
    { client := { x.record.client with mode := mode }
      ledger := { x.ledger with
        queued := x.ledger.queued ++ if x.chan.cmd.IsFull then [] else [x.ledger.settles]
        lastCmd := data
        typed := true } }

/-- The write to STATUS in `session_settle`. -/
def writeStatus (x : World n K) (mode : Mode) : World n K where
  shared := { x.shared with chan := (mgmtChanRegWrite x.chan .mgmtStatus 0).1 }
  record :=
    { client := { x.record.client with mode := mode }
      ledger := { x.ledger with settles := x.ledger.settles + 1, typed := false } }

/-- The acknowledgement of `d`, and its way to the screen. -/
def writeResp (x : World n K) (phase : Bool) (d : Byte) (mode : Mode) : World n K where
  shared := { x.shared with chan := (mgmtChanRegWrite x.chan .mgmtResp 0).1 }
  record := { x.record with client :=
    { x.record.client with mode := mode, lastPhase := phase, term := Terminal.emit x.record.client.term d } }

/-- The byte of the last two reads is accepted. -/
def accept (x : World n K) (mode : Mode) : World n K where
  shared := x.shared
  record :=
    { client := { x.record.client with mode := mode }
      ledger := { x.ledger with
        taken := x.ledger.taken ++ [(x.ledger.cell, x.ledger.settles)] } }

def phase (x : World n K) : Bool := hasBit x.chan.status mgmtChanRespPhase

/-- STATUS announces a byte that the client has not taken. -/
def Fresh (x : World n K) : Prop :=
  hasBit x.chan.status mgmtChanRespReady = true ∧ x.phase ≠ x.record.client.lastPhase

instance (x : World n K) : Decidable x.Fresh := inferInstanceAs (Decidable (_ ∧ _))

/-- The STATUS read of the main loop. -/
def poll (x : World n K) : World n K :=
  if hasBit x.chan.status mgmtChanOverflow then
    { x with record := { x.record with client :=
      { x.record.client with mode := .settle false, term := x.record.client.term.overflow } } }
  else if x.Fresh then x.goto (.grab 0 x.phase)
  else x.goto .top

def seed (x : World n K) (first : Bool) : World n K :=
  { x with record := { x.record with client :=
    { x.record.client with mode := if first then .opening else .top, lastPhase := x.phase } } }

end World

/-- A key, or the next bus access. -/
inductive Input
  | key (c : Byte) (next : Option Byte)
  | access

def keyStep (x : World n K) (c : Byte) (next : Option Byte) : World n K :=
  let r := press x.record.client.term.cursorHidden x.record.client.shadow c next
  let mode := match r.1 with
    | .quit => .gone
    | .again => .top
    | .send bytes => .sending bytes
  { x with record := { x.record with client := { x.record.client with mode := mode, shadow := r.2 } } }

def accessStep (x : World n K) : Option (World n K) :=
  match x.mode with
  | .probe value => some (x.writeCmd value (.probed value))
  | .probed value => some (x.goto
    (if x.chan.cmdEcho = ~~~value then if value = 0x55 then .probe 0xAA else .signature true
      else .gone))
  | .signature again => some (x.goto
    (if x.chan.status &&& 0xF0 = mgmtChanSig then if again then .signature false else .settle true
      else .gone))
  | .settle first => some (x.writeStatus (.waiting first))
  | .waiting first => some (if x.chan.cmdEcho = 0xFF then x.goto (.seeding first) else x)
  | .seeding first => some (x.seed first)
  | .opening => some (x.writeCmd 0x0D .top)
  | .top | .sending [] => some x.poll
  | .sending (b :: keys) => some (x.writeCmd b (.sending keys))
  | .grab drained phase => some (x.goto (.regrab drained phase x.chan.respByte))
  | .regrab drained phase d => some
    (if x.chan.respByte = d then x.accept (.ack drained phase d)
      else x.goto (.regrab drained phase x.chan.respByte))
  | .ack drained phase d => some
    (x.writeResp phase d (if 256 ≤ drained + 1 then .top else .more (drained + 1)))
  | .more drained => some (x.goto (if x.Fresh then .grab drained x.phase else .top))
  | .gone => none

def clientStep (x : World n K) : Input → Option (World n K)
  | .key c next => match x.mode with
    | .top => some (keyStep x c next)
    | _ => none
  | .access => accessStep x

def Mode.settles : Mode → Bool
  | .settle _ => true
  | _ => false

/-- "The last CMD write is never 0x00 here": before a STATUS write. -/
def LastNonzero (x : World n K) (_ : Input) : Prop :=
  x.mode.settles = true → x.ledger.lastCmd ≠ 0

/-- Repeated passes of core 0. -/
def passBody (con : Console K) (blob : List Byte) (_ : Unit) : Script (World n K) Unit :=
  (mgmtConPoll con blob).watch Session.observe

abbrev sessionStep (con : Console K) (blob : List Byte) :
    Machine (World n K) → Move Unit Input → Option (Machine (World n K)) :=
  Machine.step (passBody con blob) clientStep

/-- The client starts, on whatever channel and desk it finds. -/
def Session.start (c : MgmtChan n) (cell : ℕ → Terminal.Cell) (line : ℕ → Byte) : Session where
  client := ⟨.probe 0x55, false, .started cell, ⟨line, 0⟩⟩
  ledger :=
    { settles := 0
      serviced := 0
      lastCmd := ~~~c.cmdEcho
      typed := true
      queued := List.replicate c.cmd.length 0
      lifted := []
      consumed := []
      flushed := []
      fifo := List.replicate c.resp.length 0
      staged := []
      cell := 0
      taken := [] }

/-- Core 0 between two passes. -/
def start (c : MgmtChan n) (line : MtuiLine) (engine : K) (wasMenu : Bool) (cell : ℕ → Terminal.Cell)
    (shadow : ℕ → Byte) : Machine (World n K) :=
  ⟨⟨⟨c, ⟨line, engine, wasMenu, [], [], 0⟩⟩, Session.start c cell shadow⟩, pure ()⟩

/-- The sessions on the two sides of a reset do not mix. -/
structure Separated (x : World n K) : Prop where
  /-- At the seeding every published byte has been acknowledged, and none is on offer. -/
  seeded : ∀ first, x.mode = .seeding first →
    x.chan.served = x.chan.ack ∧ x.chan.resp.contents = [] ∧
      hasBit x.chan.status mgmtChanRespReady = false
  /-- What the client takes was enqueued after its reset was serviced. -/
  taken : ∀ p ∈ x.ledger.taken, p.2 ≤ p.1
  /-- What core 0 consumes was written after the reset it serviced last. -/
  consumed : ∀ p ∈ x.ledger.consumed, p.2 ≤ p.1
  /-- Nothing is consumed without an entry. -/
  recorded : x.ledger.consumed.length = x.shared.side.popped.length
  /-- What a reset flushes was written before it. -/
  flushed : ∀ p ∈ x.ledger.flushed, p.1 < p.2

end PicoV9k.Dmaterm
