import PicoV9k.SasiCommands
import PicoV9k.SasiWriteSix
import PicoV9k.TraceSimulation

/-!
# A disk drive

What the card is for: a memory shared with the host, the images its targets hold, and
at most one transfer between them. Several targets may hold one image. `Drive.Step` says
what each visible event requires and what it changes; no register, phase or queue occurs
in it.
-/
namespace PicoV9k.Sasi
open PicoV9k.Bus PicoV9k.Storage PicoV9k.Runs

/-- A transfer of `count` blocks, `moved` of them done; the next goes to or from `address`. -/
structure Job where
  dir : Dir
  target : ℕ
  lba : ℕ
  count : ℕ
  moved : ℕ
  address : ℕ
  failed : Bool
  deriving DecidableEq, Repr

def Job.block (j : Job) : ℕ := j.lba + j.moved

/-- The next block may be moved. -/
def Job.Open (j : Job) : Prop := j.failed = false ∧ j.moved < j.count

def Job.next (j : Job) : Job :=
  { j with moved := j.moved + 1, address := (j.address + 512) % ramSize }

def Job.fail (j : Job) : Job := { j with failed := true }

/-- GOOD says that every block was moved. A write may also fail after its last block. -/
structure Job.Answers (j : Job) (status : Byte) : Prop where
  known : status = sasiStatusGood ∨ status = sasiStatusCheckCondition
  good : status = sasiStatusGood → j.failed = false ∧ j.moved = j.count
  check : status = sasiStatusCheckCondition → j.failed = true ∨ (j.dir = .write ∧ j.moved = j.count)

variable {ι : Type}

/-- The image each target holds, and the blocks of every image. -/
structure Drive (ι : Type) where
  memory : ℕ → Byte
  holds : ℕ → ι
  disks : ι → ℕ → Sector
  job : Option Job

/-- The block a transfer comes to next. -/
def Drive.blockOf (d : Drive ι) (j : Job) : Sector := d.disks (d.holds j.target) j.block

/-- What can be seen of the drive, the host and the console. -/
inductive DriveEvent
  | poke (address : ℕ) (value : Byte)
  | exchange
  | command (target : Byte) (address : ℕ) (cdb : List Byte)
  | deliver (target lba address : ℕ) (data : Sector)
  | missed (lba address : ℕ)
  | store (target lba address : ℕ) (data : Sector)
  | torn (target lba : ℕ)
  | sense (address size : ℕ) (ok : Bool)
  | answer (status : Byte)
  | abandon

/-- The transfer a command asks for: a READ(6) or a WRITE(6). -/
def Job.ofCommand (target : Byte) (address : ℕ) (cdb : List Byte) : Option Job :=
  let job (dir : Dir) : Job :=
    ⟨dir, (target &&& 0x07).toNat, cdbLba cdb, cdbBlocks cdb, 0, address % ramSize, false⟩
  match Opcode.ofByte (cdbByte cdb 0) with
  | .readSix => some (job .read)
  | .writeSix => some (job .write)
  | _ => none

/-- One event. A block in memory is the 512 bytes of a window, a failed move leaves its own
window or its own block in doubt and nothing else. -/
inductive Drive.Step (d : Drive ι) : DriveEvent → Drive ι → Prop
  | poke (address : ℕ) (value : Byte) :
      Step d (.poke address value) { d with memory := Function.update d.memory (address % ramSize) value }
  | exchange (holds : ℕ → ι) (disks : ι → ℕ → Sector) (hidle : d.job = none) :
      Step d .exchange { d with holds := holds, disks := disks }
  | command (target : Byte) (address : ℕ) (cdb : List Byte) (hidle : d.job = none) :
      Step d (.command target address cdb) { d with job := Job.ofCommand target address cdb }
  | deliver {j : Job} (hjob : d.job = some j) (hdir : j.dir = .read) (hopen : j.Open) :
      Step d (.deliver j.target j.block j.address (d.blockOf j))
        { d with
          memory := Wrap.write ramSize d.memory j.address 512 (sectorBytes (d.blockOf j))
          job := some j.next }
  | missed {j : Job} {memory : ℕ → Byte} (hjob : d.job = some j) (hdir : j.dir = .read) (hopen : j.Open)
      (hout : ∀ a, ¬ Wrap.InWindow ramSize j.address 512 a → memory a = d.memory a) :
      Step d (.missed j.block j.address) { d with memory := memory, job := some j.fail }
  | store {j : Job} {disks : ι → ℕ → Sector} (hjob : d.job = some j) (hdir : j.dir = .write)
      (hopen : j.Open) (hblock : disks (d.holds j.target) j.block = ramSector d.memory j.address)
      (hout : ∀ i l, (i, l) ≠ (d.holds j.target, j.block) → disks i l = d.disks i l) :
      Step d (.store j.target j.block j.address (ramSector d.memory j.address))
        { d with disks := disks, job := some j.next }
  | torn {j : Job} {disks : ι → ℕ → Sector} (hjob : d.job = some j) (hdir : j.dir = .write)
      (hopen : j.Open) (hout : ∀ i l, (i, l) ≠ (d.holds j.target, j.block) → disks i l = d.disks i l) :
      Step d (.torn j.target j.block) { d with disks := disks, job := some j.fail }
  | sense {memory : ℕ → Byte} (address size : ℕ) (ok : Bool) (hidle : d.job = none) (hsize : size ≤ 4)
      (hout : ∀ a, ¬ Wrap.InWindow ramSize address size a → memory a = d.memory a)
      (hzero : ok = true → ∀ i < size, memory ((address + i) % ramSize) = 0) :
      Step d (.sense address size ok) { d with memory := memory }
  | answer {status : Byte} (hjob : ∀ j ∈ d.job, j.Answers status)
      (hknown : status = sasiStatusGood ∨ status = sasiStatusCheckCondition) :
      Step d (.answer status) { d with job := none }
  | abandon {j : Job} (hjob : d.job = some j) : Step d .abandon { d with job := none }

/-- The part of an event that the controller logs. -/
def DriveEvent.logged : DriveEvent → List Effect
  | .command target address cdb => [.routed target address cdb]
  | .deliver _ lba _ _ | .missed lba _ | .store _ lba _ _ | .torn _ lba => [.sector lba]
  | .answer status => [.status status]
  | _ => []

section Steps

variable {d d' : Drive ι} {e : DriveEvent} {j j' : Job}

/-- A write that counts a block has put the bytes of its window into the image. -/
lemma Drive.Step.stored (h : d.Step e d') (hjob : d.job = some j) (hdir : j.dir = .write)
    (hjob' : d'.job = some j') (hmoved : j'.moved = j.moved + 1) :
    d'.disks (d.holds j.target) j.block = ramSector d.memory j.address := by
  cases h with
  | store h hd hopen hblock hout => exact Option.some.inj (h.symm.trans hjob) ▸ hblock
  | deliver h hd hopen =>
    rw [Option.some.inj (h.symm.trans hjob), hdir] at hd
    cases hd
  | missed h hd hopen hout =>
    rw [Option.some.inj (h.symm.trans hjob), hdir] at hd
    cases hd
  | torn h hd hopen hout =>
    rw [← Option.some.inj hjob', Option.some.inj (h.symm.trans hjob)] at hmoved
    exact absurd hmoved (Nat.succ_ne_self _).symm
  | poke address value =>
    rw [Option.some.inj (hjob'.symm.trans hjob)] at hmoved
    exact absurd hmoved (Nat.succ_ne_self _).symm
  | exchange holds disks hidle => cases hidle.symm.trans hjob
  | command target address cdb hidle => cases hidle.symm.trans hjob
  | sense address size ok hidle hsize hout hzero => cases hidle.symm.trans hjob
  | answer h hknown => cases hjob'
  | abandon h => cases hjob'

/-- A read that counts a block has put it into its window. -/
lemma Drive.Step.delivered (h : d.Step e d') (hjob : d.job = some j) (hdir : j.dir = .read)
    (hjob' : d'.job = some j') (hmoved : j'.moved = j.moved + 1) :
    d'.memory = Wrap.write ramSize d.memory j.address 512 (sectorBytes (d.blockOf j)) := by
  cases h with
  | deliver h hd hopen => rw [Option.some.inj (h.symm.trans hjob)]
  | store h hd hopen hblock hout =>
    rw [Option.some.inj (h.symm.trans hjob), hdir] at hd
    cases hd
  | torn h hd hopen hout =>
    rw [Option.some.inj (h.symm.trans hjob), hdir] at hd
    cases hd
  | missed h hd hopen hout =>
    rw [← Option.some.inj hjob', Option.some.inj (h.symm.trans hjob)] at hmoved
    exact absurd hmoved (Nat.succ_ne_self _).symm
  | poke address value =>
    rw [Option.some.inj (hjob'.symm.trans hjob)] at hmoved
    exact absurd hmoved (Nat.succ_ne_self _).symm
  | exchange holds disks hidle => cases hidle.symm.trans hjob
  | command target address cdb hidle => cases hidle.symm.trans hjob
  | sense address size ok hidle hsize hout hzero => cases hidle.symm.trans hjob
  | answer h hknown => cases hjob'
  | abandon h => cases hjob'

/-- While a transfer runs, only a write that is about to move a block changes that block. -/
lemma Drive.Step.disks_frame (i : ι) (lba : ℕ) (h : d.Step e d') (hjob : d.job = some j)
    (hspare : ¬ (j.Open ∧ j.dir = .write ∧ (d.holds j.target, j.block) = (i, lba))) :
    d'.disks i lba = d.disks i lba := by
  have hother {k : Job} (hk : d.job = some k) (hopen : k.Open) (hdir : k.dir = .write) :
      (i, lba) ≠ (d.holds k.target, k.block) := by
    rintro heq
    cases Option.some.inj (hk.symm.trans hjob)
    exact hspare ⟨hopen, hdir, heq.symm⟩
  cases h with
  | store h hd hopen hblock hout => exact hout _ _ (hother h hopen hd)
  | torn h hd hopen hout => exact hout _ _ (hother h hopen hd)
  | exchange holds disks hidle => cases hidle.symm.trans hjob
  | _ => rfl

end Steps

end PicoV9k.Sasi
