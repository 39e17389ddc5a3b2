import PicoV9k.SasiExecution
import PicoV9k.TransitionRun

/-!
# A host that follows the boot handshake

`run_boot_step` as a script of bus accesses, and the system of host, interrupt
handler and worker: one FIFO word or one worker step at a time, in any order. The
host may also write RESET between two accesses and start over with other commands.
-/
namespace PicoV9k.Sasi
open PicoV9k.Bus PicoV9k.Storage PicoV9k.Mgmt PicoV9k.Runs

abbrev phaseIdle : Byte := 0x00
abbrev phaseBsy : Byte := 0x04
abbrev phaseCommand : Byte := 0x0E
abbrev phaseStatus : Byte := 0x0F
abbrev phaseMessage : Byte := 0x1F

inductive DmaMode
  | none | devToHost | hostToDev
  deriving DecidableEq, Repr

/-- `boot_step_t`, with the selection byte a parameter and the address cut to its 20 bits. -/
structure BootStep where
  mode : DmaMode
  dmaAddr : BitVec 20
  selection : Byte
  cdb : List Byte
  cdb_length : cdb.length = cdbLength

/-- The accesses of the host; `await` polls STATUS until it shows the phase. -/
inductive Access
  | control (data : Byte)
  | address (target : Reg) (data : Byte)
  | readAddress (target : Reg)
  | await (phase : Byte)
  | target (data : Byte)
  | select (data : Byte)
  | cdb (data : Byte)
  | readData
  deriving DecidableEq, Repr

def controlBaseForMode : DmaMode → Byte
  | .none => 0x04
  | .devToHost => 0x0D
  | .hostToDev => 0x05

def writeDmaAddress (a : BitVec 20) : List Access :=
  [.address .addrL (a.setWidth 8), .address .addrM ((a >>> 8).setWidth 8),
    .address .addrH ((a >>> 16).setWidth 8 &&& 0x0F)]

def readDmaAddress : List Access := [.readAddress .addrH, .readAddress .addrM, .readAddress .addrL]

def configureDmaMode (step : BootStep) : List Access :=
  match step.mode with
  | .devToHost => [.control 0x08, .control 0x0C] ++ writeDmaAddress step.dmaAddr ++
      [.control 0x09, .control 0x0D]
  | .hostToDev => [.control 0x00, .control 0x04] ++ writeDmaAddress step.dmaAddr ++
      [.control 0x01, .control 0x05]
  | .none => [.control 0x00, .control 0x04]

def checkDmaAddress (step : BootStep) : List Access :=
  if step.mode = .none then [] else readDmaAddress

/-- `run_boot_step` on its successful path; a host that gives up stops here or there. -/
def runBootStep (step : BootStep) : List Access :=
  configureDmaMode step ++ checkDmaAddress step ++
    [.await phaseIdle, .target step.selection,
      .select (controlBaseForMode step.mode ||| dmaSelectBit), .await phaseBsy,
      .control (controlBaseForMode step.mode)] ++
    (step.cdb.flatMap fun b => [.await phaseCommand, .cdb b]) ++
    [.await phaseStatus, .readData, .await phaseMessage, .readData] ++ checkDmaAddress step

/-- What the host wrote and saw for one command, from its SELECT to the next one:
CDB bytes, when the last of them reached the handler, STATUS and DATA values, and
for each status byte served the command that produced it. -/
structure Exchange where
  written : List Byte
  lastByteAt : ℕ
  statuses : List Byte
  datas : List Byte
  sources : List (Option ℕ)
  deriving DecidableEq, Repr

def Exchange.opened : Exchange := ⟨[], 0, [], [], []⟩

def Exchange.wrote (data : Byte) (seenAt : ℕ) (x : Exchange) : Exchange :=
  { x with written := x.written ++ [data], lastByteAt := seenAt }

def Exchange.saw (phase : Byte) (x : Exchange) : Exchange :=
  { x with statuses := x.statuses ++ [phase] }

def Exchange.got (data : Byte) (x : Exchange) : Exchange := { x with datas := x.datas ++ [data] }

def Exchange.sourced (source : Option ℕ) (x : Exchange) : Exchange :=
  { x with sources := x.sources ++ [source] }

/-- `outstanding` is the byte of a read whose commit is still to come; the latest exchange is first. -/
structure Host where
  script : List Access
  outstanding : Option Byte
  exchanges : List Exchange
  deriving DecidableEq, Repr

def Host.start (cmds : List BootStep) : Host := ⟨cmds.flatMap runBootStep, none, []⟩

def amendHead (f : Exchange → Exchange) : List Exchange → List Exchange
  | [] => []
  | x :: xs => f x :: xs

def Host.amend (h : Host) (f : Exchange → Exchange) : Host :=
  { h with exchanges := amendHead f h.exchanges }

/-- Host and core 1 together. -/
structure System (σ : Type) (n : ℕ) where
  bridge : Bridge σ n
  host : Host

inductive Label (Io σ : Type)
  | host
  | reset (data : Byte) (cmds : List BootStep)
  | skip
  | worker (io : SectorIo Io)
  | service (storage : Routing σ)

variable {Io σ : Type} {n : ℕ} (reg : Registry Io σ)

def Bridge.hostWrite (b : Bridge σ n) (target : Reg) (data : Byte) : Bridge σ n :=
  (b.isr (.write target data)).1

/-- A bus write and the rest of the script. -/
def System.write (s : System σ n) (target : Reg) (data : Byte) (rest : List Access) : System σ n :=
  { bridge := s.bridge.hostWrite target data, host := { s.host with script := rest } }

/-- The first half of a bus read. -/
def System.fetch (s : System σ n) (target : Reg) : System σ n :=
  { bridge := (s.bridge.isr (.prefetch target)).1
    host := { s.host with outstanding := (s.bridge.isr (.prefetch target)).2 } }

/-- The second half of a bus read. -/
def System.commit (s : System σ n) (target : Reg) (rest : List Access) : System σ n :=
  { bridge := (s.bridge.isr (.readCommit target)).1
    host := { s.host with script := rest, outstanding := none } }

def System.note (s : System σ n) (f : Exchange → Exchange) : System σ n :=
  { s with host := s.host.amend f }

/-- The exchange of a new command begins with its SELECT. -/
def System.open (s : System σ n) : System σ n :=
  { s with host := { s.host with exchanges := Exchange.opened :: s.host.exchanges } }

/-- The host begins its next access. -/
def System.begin (s : System σ n) (a : Access) (rest : List Access) : System σ n :=
  match a with
  | .control data => s.write .control data rest
  | .address target data => s.write target data rest
  | .target data => s.write .data data rest
  | .select data => (s.write .control data rest).open
  | .cdb data =>
    let s := s.write .data data rest
    s.note (.wrote data s.bridge.fifoEntries)
  | .readAddress target => s.fetch target
  | .await _ => s.fetch .status
  | .readData =>
    let source := s.bridge.card.history.statusOf
    if s.bridge.cachedPhase = sasiCtlBit ||| sasiInpBit then
      (s.fetch .data).note (.sourced source)
    else s.fetch .data

/-- The host ends a read of `value`; an `await` is over once it has seen its phase. -/
def System.conclude (s : System σ n) (value : Byte) (a : Access) (rest : List Access) : System σ n :=
  match a with
  | .await phase =>
    let seen := value &&& statusMask
    (s.commit .status (if seen = phase then rest else a :: rest)).note (.saw seen)
  | .readData => (s.commit .data rest).note (.got value)
  | .readAddress target => s.commit target rest
  | _ => s

def System.hostStep (s : System σ n) : Option (System σ n) :=
  match s.host.outstanding, s.host.script with
  | _, [] => none
  | some value, a :: rest => some (s.conclude value a rest)
  | none, a :: rest => some (s.begin a rest)

/-- RESET with SELECT low, after which the host turns to other commands. -/
def System.hostReset (s : System σ n) (data : Byte) (cmds : List BootStep) : Option (System σ n) :=
  if s.host.outstanding = none ∧ hasBit data dmaResetBit ∧ ¬ hasBit data dmaSelectBit then
    some (s.write .control data (cmds.flatMap runBootStep))
  else none

/-- An impatient host does not wait for the phases that lead up to the command. -/
def System.hostSkip (s : System σ n) : Option (System σ n) :=
  match s.host.outstanding, s.host.script with
  | none, .await phase :: rest =>
    if phase ∈ [phaseIdle, phaseBsy, phaseCommand] then
      some { s with host := { s.host with script := rest } }
    else none
  | _, _ => none

def System.step (s : System σ n) : Label Io σ → Option (System σ n)
  | .host => s.hostStep
  | .reset data cmds => s.hostReset data cmds
  | .skip => s.hostSkip
  | .worker io => (s.bridge.workerStep reg io).map fun b => { s with bridge := b }
  | .service storage => (s.bridge.service storage).map fun b => { s with bridge := b }

/-- Power-up, before the first access. -/
def System.start (cmds : List BootStep) (ram : ℕ → Byte) (storage : Routing σ) (chan : MgmtChan n) :
    System σ n :=
  { bridge := .initial ram storage chan, host := .start cmds }

end PicoV9k.Sasi
