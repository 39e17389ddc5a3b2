import PicoV9k.CounterRing
import PicoV9k.DmaRegisters
import PicoV9k.SdStorage
import PicoV9k.TransitionRun

/-!
# The command log

Core 1 pushes an entry for every command into a ring; whichever core finds the bus idle
formats what waits and appends it to a file. The cores share the ring, the batch buffer
and the file under one lock, which the checks in front of a flush do not take.
-/
namespace PicoV9k.SasiLog
open PicoV9k.Bus PicoV9k.Storage PicoV9k.Runs PicoV9k.Rings

/-- `sasi_log_entry_t`, without the timestamp that no line shows. -/
structure LogEntry where
  opcode : Byte
  status : Byte
  target : Byte
  event : Byte
  lba : BitVec 32
  blockCount : BitVec 16
  durationMs : BitVec 16
  dmaAddress : BitVec 32
  busCtrl : Byte

def sasiLogCmdStart (opcode target : Byte) (lba : BitVec 32) (blocks : BitVec 16) (dmaAddr : BitVec 32)
    (busCtrl : Byte) : LogEntry := ⟨opcode, 0, target, 0, lba, blocks, 0, dmaAddr, busCtrl⟩

def sasiLogCmdComplete (opcode target status : Byte) (lba : BitVec 32) (blocks : BitVec 16)
    (dmaAddr : BitVec 32) (busCtrl : Byte) : LogEntry :=
  ⟨opcode, status, target, 1, lba, blocks, 0, dmaAddr, busCtrl⟩

def sasiLogDmaError (errorCode : Byte) (dmaAddr : BitVec 32) (busCtrl : Byte) : LogEntry :=
  ⟨errorCode, 0, 0, 2, 0, 0, 0, dmaAddr, busCtrl⟩

def sasiOpcodeName (op : Byte) : String :=
  match op.toNat with
  | 0x00 => "TUR"
  | 0x01 => "REZERO"
  | 0x03 => "SENSE"
  | 0x08 => "READ"
  | 0x0A => "WRITE"
  | 0x0C => "INIT_DRV"
  | 0x15 => "MODE_SEL"
  | 0xE0 => "DIAG_RAM"
  | 0xE3 => "DIAG_DRV"
  | 0xE4 => "DIAG_INT"
  | _ => "???"

def eventName (event : Byte) : String :=
  match event.toNat with
  | 0 => "CMD_START"
  | 1 => "CMD_DONE "
  | 2 => "DMA_ERROR"
  | _ => "UNKNOWN  "

/-- `%0kX`. -/
def hexField (k n : ℕ) : List Char :=
  let digits := (Nat.toDigits 16 n).map Char.toUpper
  List.replicate (k - digits.length) '0' ++ digits

/-- `%ku`. -/
def decimalField (k n : ℕ) : List Char :=
  let digits := Nat.toDigits 10 n
  List.replicate (k - digits.length) ' ' ++ digits

/-- `%-ks`. -/
def nameField (k : ℕ) (name : String) : List Char :=
  name.toList ++ List.replicate (k - name.toList.length) ' '

def gap : List Char := [' ', ' ']

def hexMark : List Char := [' ', ' ', '0', 'x']

def LogEntry.line (e : LogEntry) : List Char :=
  (eventName e.event).toList ++ hexMark ++ hexField 2 e.opcode.toNat ++ gap ++
  nameField 8 (sasiOpcodeName e.opcode) ++ gap ++ decimalField 3 e.target.toNat ++ gap ++
  hexField 8 e.lba.toNat ++ gap ++ decimalField 4 e.blockCount.toNat ++ gap ++
  hexField 8 e.dmaAddress.toNat ++ hexMark ++ hexField 2 e.busCtrl.toNat ++ gap ++ gap ++ [' '] ++
  decimalField 6 e.durationMs.toNat ++ hexMark ++ hexField 2 e.status.toNat ++ ['\n']

/-- Core 0 flushes from its main loop, core 1 between two entries of its worker loop. -/
inductive Flusher
  | mainLoop | worker
  deriving DecidableEq

/-- Who has the FatFS lock. -/
inductive Holder
  | storage
  | log (core : Flusher)
  deriving DecidableEq

/-- Where a call of `sasi_log_push` stands, with what it has read. -/
inductive PushStage
  | idle
  | counted (e : LogEntry) (write : BitVec 32)
  | room (e : LogEntry) (write : BitVec 32)
  | stored (e : LogEntry)

/-- Where a call of `sasi_log_flush_if_ready` stands; from `fill` on it has the lock. -/
inductive FlushStage
  | idle
  | enabled
  | rested
  | pending
  | fill
  | line (e : LogEntry)
  | write
  | failed
  | unlock
  | stamp

def FlushStage.Locked : FlushStage → Prop
  | .fill | .line _ | .write | .failed | .unlock => True
  | .idle | .enabled | .rested | .pending | .stamp => False

/-- The statics of `sasi_log.c`: `fil` says whether FatFS takes `sasi_log_fil` for an open file, `file` is
what has been written to it, `batch` the part of the buffer that is filled. `accepted` records the
entries that were counted. -/
structure LogWorld where
  enabled : Bool
  fileOpen : Bool
  fil : Bool
  file : List Char
  ring : CounterRing LogEntry 32 512
  wasBusFree : Bool
  busFreeSince : BitVec 64
  batch : List Char
  guard : Option Holder
  pusher : PushStage
  flush : Flusher → FlushStage
  accepted : List LogEntry

def sasiLogHeader : List Char :=
  ("\n=== SASI LOG SESSION START ===\n" ++
    "Event     Op    Name      Tgt  LBA       Blks  DMA_Addr  BusCtrl  Dur_ms  Status\n" ++
    "--------  ----  --------  ---  --------  ----  --------  -------  ------  ------\n").toList

/-- FatFS during the initialisation: the marker file, the open, the write of the header. -/
structure InitIo where
  stat : FResult
  openLog : FResult
  write : FResult × ℕ

/-- The ring after `memset`. -/
def emptyRing : CounterRing LogEntry 32 512 :=
  .empty ⟨0, 0, 0, 0, 0, 0, 0, 0, 0⟩ (by norm_num) (by norm_num)

def LogWorld.initial (enabled fil : Bool) (file : List Char) : LogWorld where
  enabled := enabled
  fileOpen := fil
  fil := fil
  file := file
  ring := emptyRing
  wasBusFree := false
  busFreeSince := 0
  batch := []
  guard := none
  pusher := .idle
  flush := fun _ => .idle
  accepted := []

/-- Logging starts only if there is a marker file. -/
def sasiLogInit (io : InitIo) (file : List Char) : LogWorld :=
  if io.stat ≠ .ok then .initial false false file
  else if io.openLog ≠ .ok then .initial false false file
  else if io.write.1 ≠ .ok ∨ io.write.2 ≠ sasiLogHeader.length then
    .initial false false (file ++ sasiLogHeader.take io.write.2)
  else .initial true true (file ++ sasiLogHeader)

def sasiLogIdleFlushUs : ℕ := 50000

/-- What a flush meets: the bus, the time, and the answer of `f_write`. -/
structure FlushIo where
  busCtrl : Byte
  now : BitVec 64
  write : FResult × ℕ

inductive LogLabel
  | push (e : LogEntry)
  | pushing
  | flush (core : Flusher) (io : FlushIo)
  | lock
  | unlock
  | remount

def LogWorld.setFlush (w : LogWorld) (c : Flusher) (stage : FlushStage) : LogWorld :=
  { w with flush := Function.update w.flush c stage }

/-- The next access of a push. -/
def LogWorld.pushStep (w : LogWorld) : LogWorld :=
  match w.pusher with
  | .idle => w
  | .counted e write =>
    { w with pusher := if 512 ≤ (write - w.ring.read).toNat then .idle else .room e write }
  | .room e write =>
    { w with
      ring := { w.ring with slots := Function.update w.ring.slots (write.toNat % 512) e }
      pusher := .stored e }
  | .stored e => { w with ring := w.ring.publish, pusher := .idle, accepted := w.accepted ++ [e] }

/-- The next access of a flush. -/
def LogWorld.flushStep (w : LogWorld) (c : Flusher) (io : FlushIo) : LogWorld :=
  match w.flush c with
  | .idle => w.setFlush c (if w.enabled && w.fileOpen then .enabled else .idle)
  | .enabled =>
    if io.busCtrl ≠ 0 then { w with wasBusFree := false }.setFlush c .idle
    else if !w.wasBusFree then { w with wasBusFree := true, busFreeSince := io.now }.setFlush c .idle
    else if (io.now - w.busFreeSince).toNat < sasiLogIdleFlushUs then w.setFlush c .idle
    else w.setFlush c .rested
  | .rested => w.setFlush c (if w.ring.read = w.ring.write then .idle else .pending)
  | .pending =>
    if w.guard = none then { w with guard := some (.log c), batch := [] }.setFlush c .fill
    else w.setFlush c .idle
  | .fill =>
    if w.ring.read = w.ring.write then w.setFlush c (if w.batch = [] then .unlock else .write)
    else w.setFlush c (.line (w.ring.slot w.ring.read))
  | .line e =>
    -- the line no longer fits, and waits for the next flush
    if 2047 ≤ w.batch.length + e.line.length then w.setFlush c (if w.batch = [] then .unlock else .write)
    else { w with batch := w.batch ++ e.line, ring := w.ring.pop }.setFlush c .fill
  | .write =>
    if w.fil = true ∧ io.write.1 = .ok ∧ io.write.2 = w.batch.length then
      { w with file := w.file ++ w.batch, batch := [] }.setFlush c .unlock
    else
      -- `f_close` follows whatever part has been written
      let part := if w.fil then w.batch.take io.write.2 else []
      { w with file := w.file ++ part, fil := false }.setFlush c .failed
  | .failed => { w with fileOpen := false, enabled := false }.setFlush c .unlock
  | .unlock => { w with guard := none }.setFlush c .stamp
  | .stamp => { w with busFreeSince := io.now }.setFlush c .idle

/-- Core 1 does one thing at a time, and its storage takes the lock like a flush does. -/
def logStep (w : LogWorld) : LogLabel → Option LogWorld
  | .push e =>
    match w.pusher, w.flush .worker with
    | .idle, .idle => some { w with pusher := if w.enabled then .counted e w.ring.write else .idle }
    | _, _ => none
  | .pushing => some w.pushStep
  | .flush .mainLoop io => some (w.flushStep .mainLoop io)
  | .flush .worker io =>
    match w.pusher with
    | .idle => some (w.flushStep .worker io)
    | _ => none
  | .lock => if w.guard = none then some { w with guard := some .storage } else none
  | .unlock => if w.guard = some .storage then some { w with guard := none } else none
  -- a recovery of the card takes the volume away from every open file
  | .remount => if w.guard = some .storage then some { w with fil := false } else none

def linesOf (es : List LogEntry) : List Char := es.flatMap LogEntry.line

/-- What has been written since the start is the beginning of what the accepted entries say, and while
the file is open the rest is in the buffer and the ring. -/
def LogWorld.Told (start : List Char) (w : LogWorld) : Prop :=
  ∃ text, w.file = start ++ text ∧ text <+: linesOf w.accepted ∧
    (w.fil = true → text ++ w.batch ++ linesOf w.ring.contents = linesOf w.accepted)

/-- What a push has read is still so; only the consumer may have moved on. -/
def PushStage.Current (r : CounterRing LogEntry 32 512) : PushStage → Prop
  | .idle => True
  | .counted _ write => write = r.write
  | .room _ write => write = r.write ∧ r.waiting < 512
  | .stored e => r.waiting < 512 ∧ r.slot r.write = e

/-- What holds while a flush of core `c` stands at a stage. -/
def FlushStage.Fits (w : LogWorld) : FlushStage → Prop
  | .line e => ∃ rest, w.ring.contents = e :: rest
  | .failed => w.fil = false
  | .unlock => w.fil = true → w.batch = []
  | .idle | .enabled | .rested | .pending | .fill | .write | .stamp => True

structure LogWorld.Sound (start : List Char) (w : LogWorld) : Prop where
  bounded : w.ring.waiting ≤ 512
  push : w.pusher.Current w.ring
  locked : ∀ c, (w.flush c).Locked → w.guard = some (.log c)
  fits : ∀ c, (w.flush c).Fits w
  resting : w.fil = true → (∀ c, w.guard ≠ some (.log c)) → w.batch = []
  told : w.Told start

variable {w : LogWorld} {start : List Char} {c : Flusher}

/-- The other core is at an access that the lock does not cover. -/
lemma LogWorld.Sound.other (h : w.Sound start) (hc : (w.flush c).Locked) {d : Flusher} (hd : d ≠ c) :
    ¬ (w.flush d).Locked := by
  intro hlocked
  have hguard := h.locked c hc
  rw [h.locked d hlocked] at hguard
  exact hd (by simpa using hguard)

lemma FlushStage.Fits.of_unlocked {stage : FlushStage} (h : ¬ stage.Locked) (w : LogWorld) : stage.Fits w := by
  cases stage <;> first | trivial | exact absurd trivial h

lemma setFlush_self (w : LogWorld) (c : Flusher) (stage : FlushStage) :
    (w.setFlush c stage).flush c = stage := by
  simp [LogWorld.setFlush]

lemma setFlush_other {d : Flusher} (h : d ≠ c) (w : LogWorld) (stage : FlushStage) :
    (w.setFlush c stage).flush d = w.flush d := by
  simp [LogWorld.setFlush, h]

/-- A flush that moves on without touching anything shared. -/
lemma LogWorld.Sound.setFlush (h : w.Sound start) {stage : FlushStage}
    (hlocked : stage.Locked → w.guard = some (.log c)) (hfits : stage.Fits w) :
    (w.setFlush c stage).Sound start := by
  refine ⟨h.bounded, h.push, fun d hd => ?_, fun d => ?_, h.resting, h.told⟩ <;>
    rcases eq_or_ne d c with rfl | hne
  · rw [setFlush_self] at hd
    exact hlocked hd
  · rw [setFlush_other hne] at hd
    exact h.locked d hd
  · rw [setFlush_self]
    cases stage <;> exact hfits
  · rw [setFlush_other hne]
    have hother := h.fits d
    cases hstage : w.flush d <;> rw [hstage] at hother <;> exact hother

/-- An access of the core that has the lock. -/
lemma LogWorld.Sound.held (h : w.Sound start) (hc : (w.flush c).Locked) {v : LogWorld} {stage : FlushStage}
    (hstage : stage.Locked) (hflush : v.flush = w.flush) (hguard : v.guard = w.guard)
    (hbounded : v.ring.waiting ≤ 512) (hpush : v.pusher.Current v.ring) (hfits : stage.Fits v)
    (htold : v.Told start) : (v.setFlush c stage).Sound start := by
  have hown : v.guard = some (.log c) := hguard.trans (h.locked c hc)
  have hothers {d : Flusher} (hd : d ≠ c) : ¬ ((v.setFlush c stage).flush d).Locked := by
    rw [setFlush_other hd, hflush]
    exact h.other hc hd
  refine ⟨hbounded, hpush, fun d hd => ?_, fun d => ?_, fun _ hfree => ?_, htold⟩
  · rcases eq_or_ne d c with rfl | hne
    · exact hown
    · exact absurd hd (hothers hne)
  · rcases eq_or_ne d c with rfl | hne
    · rw [setFlush_self]
      cases stage <;> exact hfits
    · exact .of_unlocked (hothers hne) _
  · exact absurd hown (hfree c)

/-- The line joins the batch. -/
lemma told_take {e : LogEntry} (h : w.Told start) (hne : w.ring.read ≠ w.ring.write)
    (he : w.ring.slot w.ring.read = e) :
    { w with batch := w.batch ++ e.line, ring := w.ring.pop }.Told start := by
  obtain ⟨text, hfile, hprefix, hall⟩ := h
  refine ⟨text, hfile, hprefix, fun hopen => ?_⟩
  have hcontents := CounterRing.contents_pop hne
  have hrest := hall hopen
  rw [hcontents, he] at hrest
  simpa [linesOf, List.append_assoc] using hrest

/-- The batch joins the file. -/
lemma told_write (h : w.Told start) (hopen : w.fil = true) :
    { w with file := w.file ++ w.batch, batch := [] }.Told start := by
  obtain ⟨text, hfile, hprefix, hall⟩ := h
  have hsplit := hall hopen
  refine ⟨text ++ w.batch, by simp [hfile], ?_, fun _ => by simpa using hsplit⟩
  exact ⟨_, hsplit⟩

/-- A part of the batch may have joined the file when it is closed. -/
lemma told_fail (h : w.Told start) (n : ℕ) :
    { w with file := w.file ++ if w.fil then w.batch.take n else [], fil := false }.Told start := by
  obtain ⟨text, hfile, hprefix, hall⟩ := h
  cases hopen : w.fil with
  | false => exact ⟨text, by simp [hfile], hprefix, nofun⟩
  | true =>
    refine ⟨text ++ w.batch.take n, by simp [hfile], ?_, nofun⟩
    have hpart : text ++ w.batch.take n <+: text ++ w.batch :=
      (List.prefix_append_right_inj text).mpr (List.take_prefix n w.batch)
    exact hpart.trans ⟨_, hall hopen⟩

lemma PushStage.Current.pop {r : CounterRing LogEntry 32 512} {stage : PushStage} (h : stage.Current r)
    (hne : r.read ≠ r.write) : stage.Current r.pop := by
  have hwaiting := CounterRing.waiting_pop hne
  cases stage with
  | idle => trivial
  | counted e write => exact h
  | room e write => exact ⟨h.1, by have := h.2; omega⟩
  | stored e => exact ⟨by have := h.1; omega, h.2⟩

/-- The batch starts empty when the lock is taken. -/
lemma acquire_sound (h : w.Sound start) (hfree : w.guard = none) :
    ({ w with guard := some (.log c), batch := [] }.setFlush c .fill).Sound start := by
  have hnone (d : Flusher) : ¬ (w.flush d).Locked := by
    intro hlocked
    have hguard := h.locked d hlocked
    rw [hfree] at hguard
    cases hguard
  have htold : { w with guard := some (.log c), batch := [] }.Told start := by
    obtain ⟨text, hfile, hprefix, hall⟩ := h.told
    refine ⟨text, hfile, hprefix, fun hopen => ?_⟩
    have hbatch := h.resting hopen (by simp [hfree])
    have hsplit := hall hopen
    rwa [hbatch] at hsplit
  refine ⟨h.bounded, h.push, fun d hd => ?_, fun d => ?_, fun _ _ => rfl, htold⟩
  · rcases eq_or_ne d c with rfl | hne
    · rfl
    · rw [setFlush_other hne] at hd
      exact absurd hd (hnone d)
  · rcases eq_or_ne d c with rfl | hne
    · rw [setFlush_self]
      trivial
    · rw [setFlush_other hne]
      exact .of_unlocked (hnone d) _

/-- A flush that gives the lock back leaves nothing in the batch of an open file. -/
lemma release_sound (h : w.Sound start) (hstage : w.flush c = .unlock) :
    ({ w with guard := none }.setFlush c .stamp).Sound start := by
  have hc : (w.flush c).Locked := hstage ▸ trivial
  have hfits := h.fits c
  rw [hstage] at hfits
  refine ⟨h.bounded, h.push, fun d hd => ?_, fun d => ?_, fun hopen _ => hfits hopen, h.told⟩ <;>
    rcases eq_or_ne d c with rfl | hne
  · rw [setFlush_self] at hd
    cases hd
  · rw [setFlush_other hne] at hd
    exact absurd hd (h.other hc hne)
  · rw [setFlush_self]
    trivial
  · rw [setFlush_other hne]
    exact .of_unlocked (h.other hc hne) _

lemma flushStep_sound (h : w.Sound start) (c : Flusher) (io : FlushIo) : (w.flushStep c io).Sound start := by
  have hclock (free : Bool) (since : BitVec 64) : { w with wasBusFree := free, busFreeSince := since }.Sound start :=
    ⟨h.bounded, h.push, h.locked, h.fits, h.resting, h.told⟩
  have hmove (v : LogWorld) (hv : v.Sound start) {stage : FlushStage} (hstage : ¬ stage.Locked) :
      (v.setFlush c stage).Sound start :=
    hv.setFlush (fun hlocked => absurd hlocked hstage) (.of_unlocked hstage v)
  unfold LogWorld.flushStep
  split
  next hstage =>
    apply hmove w h
    split <;> exact id
  next hstage =>
    split
    · exact hmove _ (hclock _ _) id
    split
    · exact hmove _ (hclock _ _) id
    split
    · exact hmove w h id
    · exact hmove w h id
  next hstage =>
    apply hmove w h
    split <;> exact id
  next hstage =>
    split
    next hfree => exact acquire_sound h hfree
    · exact hmove w h id
  next hstage =>
    have hc : (w.flush c).Locked := hstage ▸ trivial
    have hown (_ : True) := h.locked c hc
    split
    · split
      next hbatch => exact h.setFlush hown fun _ => hbatch
      · exact h.setFlush hown trivial
    next hne => exact h.setFlush hown ⟨_, CounterRing.contents_pop hne⟩
  next e hstage =>
    have hc : (w.flush c).Locked := hstage ▸ trivial
    have hown (_ : True) := h.locked c hc
    split
    · split
      next hbatch => exact h.setFlush hown fun _ => hbatch
      · exact h.setFlush hown trivial
    · have hfits := h.fits c
      rw [hstage] at hfits
      obtain ⟨rest, hrest⟩ := hfits
      have hne : w.ring.read ≠ w.ring.write := by
        rw [Ne, CounterRing.empty_iff, hrest]
        exact List.cons_ne_nil e rest
      have he : w.ring.slot w.ring.read = e := by
        rw [CounterRing.contents_pop hne] at hrest
        exact (List.cons.inj hrest).1
      have hwaiting := CounterRing.waiting_pop hne
      have hbounded : w.ring.pop.waiting ≤ 512 := by
        have := h.bounded
        omega
      exact h.held hc trivial rfl rfl hbounded (h.push.pop hne) trivial (told_take h.told hne he)
  next hstage =>
    have hc : (w.flush c).Locked := hstage ▸ trivial
    split
    next hok => exact h.held hc trivial rfl rfl h.bounded h.push (fun _ => rfl) (told_write h.told hok.1)
    · exact h.held hc trivial rfl rfl h.bounded h.push rfl (told_fail h.told io.write.2)
  next hstage =>
    have hc : (w.flush c).Locked := hstage ▸ trivial
    have hfits := h.fits c
    rw [hstage] at hfits
    have hclosed : w.fil = false := hfits
    exact h.held hc trivial rfl rfl h.bounded h.push (by simp [FlushStage.Fits, hclosed]) h.told
  next hstage => exact release_sound h hstage
  next hstage => exact hmove _ (hclock _ _) id

/-- A step of the producer that no flush can tell. -/
lemma LogWorld.Sound.quiet (h : w.Sound start) {ring : CounterRing LogEntry 32 512} {stage : PushStage}
    (hcontents : ring.contents = w.ring.contents) (hpush : stage.Current ring) :
    { w with ring := ring, pusher := stage }.Sound start := by
  have hwaiting : ring.waiting = w.ring.waiting := by
    rw [← CounterRing.contents_length, hcontents, CounterRing.contents_length]
  refine ⟨hwaiting ▸ h.bounded, hpush, h.locked, fun c => ?_, h.resting, ?_⟩
  · have hfits := h.fits c
    cases hflush : w.flush c with
    | line e =>
      rw [hflush] at hfits
      obtain ⟨rest, hrest⟩ := hfits
      exact ⟨rest, hcontents.trans hrest⟩
    | _ =>
      rw [hflush] at hfits
      exact hfits
  · unfold LogWorld.Told
    dsimp only
    rw [hcontents]
    exact h.told

/-- The entry is counted, and a flush may find it from now on. -/
lemma publish_sound (h : w.Sound start) {e : LogEntry} (hstage : w.pusher = .stored e) :
    { w with ring := w.ring.publish, pusher := .idle, accepted := w.accepted ++ [e] }.Sound start := by
  have hpush := h.push
  rw [hstage] at hpush
  have hcontents : w.ring.publish.contents = w.ring.contents ++ [e] := by
    rw [CounterRing.contents_publish hpush.1, hpush.2]
  have hwaiting := CounterRing.waiting_publish hpush.1
  refine ⟨?_, trivial, h.locked, fun c => ?_, h.resting, ?_⟩
  · have := hpush.1
    dsimp only
    omega
  · have hfits := h.fits c
    cases hflush : w.flush c with
    | line first =>
      rw [hflush] at hfits
      obtain ⟨rest, hrest⟩ := hfits
      exact ⟨rest ++ [e], by simp [hcontents, hrest]⟩
    | _ =>
      rw [hflush] at hfits
      exact hfits
  · obtain ⟨text, hfile, hprefix, hall⟩ := h.told
    have hlines : linesOf (w.accepted ++ [e]) = linesOf w.accepted ++ e.line := by simp [linesOf]
    refine ⟨text, hfile, ?_, fun hopen => ?_⟩
    · rw [hlines]
      exact hprefix.trans (List.prefix_append _ _)
    · dsimp only
      rw [hlines, hcontents, ← hall hopen]
      simp [linesOf]

lemma pushStep_sound (h : w.Sound start) : w.pushStep.Sound start := by
  have hpush := h.push
  unfold LogWorld.pushStep
  split
  · exact h
  next e write hstage =>
    rw [hstage] at hpush
    refine h.quiet rfl ?_
    split
    · trivial
    next hroom =>
      obtain rfl : write = w.ring.write := hpush
      exact ⟨rfl, not_le.mp hroom⟩
  next e write hstage =>
    rw [hstage] at hpush
    obtain ⟨rfl, hroom⟩ := hpush
    have hstored : (w.ring.store e).contents = w.ring.contents := CounterRing.contents_store hroom e
    exact h.quiet hstored ⟨hroom, CounterRing.slot_store e⟩
  next e hstage => exact publish_sound h hstage

lemma logStep_sound (h : w.Sound start) {label : LogLabel} {v : LogWorld} (hv : logStep w label = some v) :
    v.Sound start := by
  cases label with
  | push e =>
    simp only [logStep] at hv
    split at hv
    · cases hv
      refine h.quiet rfl ?_
      split
      · rfl
      · trivial
    · cases hv
  | pushing =>
    cases hv
    exact pushStep_sound h
  | flush core io =>
    cases core with
    | mainLoop =>
      cases hv
      exact flushStep_sound h _ io
    | worker =>
      simp only [logStep] at hv
      split at hv
      · cases hv
        exact flushStep_sound h _ io
      · cases hv
  | lock =>
    obtain ⟨hfree, rfl⟩ := Option.ite_some_none_eq_some.mp hv
    have hnone (c : Flusher) : ¬ (w.flush c).Locked := fun hc => by simpa [hfree] using h.locked c hc
    exact ⟨h.bounded, h.push, fun c hc => absurd hc (hnone c), fun c => .of_unlocked (hnone c) _,
      fun hopen _ => h.resting hopen (by simp [hfree]), h.told⟩
  | unlock =>
    obtain ⟨hheld, rfl⟩ := Option.ite_some_none_eq_some.mp hv
    have hnone (c : Flusher) : ¬ (w.flush c).Locked := fun hc => by simpa [hheld] using h.locked c hc
    exact ⟨h.bounded, h.push, fun c hc => absurd hc (hnone c), fun c => .of_unlocked (hnone c) _,
      fun hopen _ => h.resting hopen (by simp [hheld]), h.told⟩
  | remount =>
    obtain ⟨hheld, rfl⟩ := Option.ite_some_none_eq_some.mp hv
    have hnone (c : Flusher) : ¬ (w.flush c).Locked := fun hc => by simpa [hheld] using h.locked c hc
    obtain ⟨text, hfile, hprefix, -⟩ := h.told
    exact ⟨h.bounded, h.push, h.locked, fun c => .of_unlocked (hnone c) _, nofun, text, hfile, hprefix, nofun⟩

lemma initial_sound (enabled fil : Bool) (file : List Char) :
    (LogWorld.initial enabled fil file).Sound file := by
  have hcontents : (LogWorld.initial enabled fil file).ring.contents = [] := CounterRing.contents_empty _ _ _
  have hbounded : (LogWorld.initial enabled fil file).ring.waiting ≤ 512 := by
    rw [← CounterRing.contents_length, hcontents]
    exact Nat.zero_le 512
  have htold : (LogWorld.initial enabled fil file).Told file := by
    refine ⟨[], by simp [LogWorld.initial], List.nil_prefix, fun _ => ?_⟩
    rw [hcontents]
    rfl
  exact ⟨hbounded, trivial, fun _ hc => hc.elim, fun _ => trivial, fun _ _ => rfl, htold⟩

lemma sasiLogInit_sound (io : InitIo) (file : List Char) :
    (sasiLogInit io file).Sound (sasiLogInit io file).file := by
  unfold sasiLogInit
  split_ifs <;> exact initial_sound _ _ _

/-- The entry a push has in hand. -/
def PushStage.held : PushStage → List LogEntry
  | .idle => []
  | .counted e _ | .room e _ | .stored e => [e]

def LogLabel.offered : LogLabel → List LogEntry
  | .push e => [e]
  | .pushing | .flush _ _ | .lock | .unlock | .remount => []

def LogWorld.known (w : LogWorld) : List LogEntry := w.accepted ++ w.pusher.held

lemma flushStep_known (w : LogWorld) (c : Flusher) (io : FlushIo) : (w.flushStep c io).known = w.known := by
  unfold LogWorld.flushStep
  split <;> (repeat' split) <;> rfl

lemma pushStep_known (w : LogWorld) : List.Sublist w.pushStep.known w.known := by
  unfold LogWorld.pushStep LogWorld.known
  split
  · exact .refl _
  next e write hstage =>
    rw [hstage]
    split
    · exact (List.Sublist.refl w.accepted).append (List.nil_sublist [e])
    · exact .refl _
  next e write hstage =>
    rw [hstage]
    exact .refl _
  next e hstage =>
    rw [hstage]
    simp [PushStage.held]

/-- Entries are counted in the order of the pushes, and once each. -/
lemma logStep_known {label : LogLabel} {v : LogWorld} (hv : logStep w label = some v) :
    List.Sublist v.known (w.known ++ label.offered) := by
  cases label with
  | push e =>
    simp only [logStep] at hv
    split at hv
    next hidle _ =>
      cases hv
      unfold LogWorld.known
      rw [hidle]
      dsimp only
      split
      · simp [PushStage.held, LogLabel.offered]
      · simp [PushStage.held, LogLabel.offered]
    · cases hv
  | pushing =>
    cases hv
    simpa [LogLabel.offered] using pushStep_known w
  | flush core io =>
    cases core with
    | mainLoop =>
      cases hv
      simp [flushStep_known, LogLabel.offered]
    | worker =>
      simp only [logStep] at hv
      split at hv
      · cases hv
        simp [flushStep_known, LogLabel.offered]
      · cases hv
  | lock | unlock | remount =>
    obtain ⟨-, rfl⟩ := Option.ite_some_none_eq_some.mp hv
    simp [LogWorld.known, LogLabel.offered]

lemma logRun_known {labels : List LogLabel} {v : LogWorld} (h : Run logStep w labels v) :
    List.Sublist v.known (w.known ++ labels.flatMap LogLabel.offered) := by
  induction h with
  | nil w => simp
  | cons _ hs _ ih =>
    refine ih.trans ?_
    rw [List.flatMap_cons, ← List.append_assoc]
    exact (logStep_known hs).append (.refl _)

/-- Whatever the two cores do in between, the file grows by a beginning of the lines of the entries that
were counted, in their order and once each, and none of them is lost while the file is open; a push is
refused exactly when 512 entries wait. -/
theorem log_keeps_lines {io : InitIo} {file : List Char} {labels : List LogLabel}
    (h : Run logStep (sasiLogInit io file) labels w) :
    w.Told (sasiLogInit io file).file ∧ List.Sublist w.accepted (labels.flatMap LogLabel.offered) ∧
      ∀ e write, w.pusher = .counted e write → (w.pushStep.pusher = .idle ↔ w.ring.contents.length = 512) := by
  have hsound : w.Sound (sasiLogInit io file).file :=
    h.invariant (fun _ _ _ hs _ hstep => logStep_sound hs hstep) (sasiLogInit_sound io file)
  have hnone : (sasiLogInit io file).known = [] := by
    unfold sasiLogInit
    split_ifs <;> rfl
  refine ⟨hsound.told, ?_, fun e write hstage => ?_⟩
  · have hknown := logRun_known h
    rw [hnone] at hknown
    exact (List.sublist_append_left w.accepted w.pusher.held).trans hknown
  · have hpush := hsound.push
    rw [hstage] at hpush
    obtain rfl : write = w.ring.write := hpush
    have hstep : w.pushStep.pusher = if 512 ≤ w.ring.waiting then .idle else .room e w.ring.write := by
      unfold LogWorld.pushStep
      rw [hstage]
      rfl
    rw [hstep, CounterRing.contents_length]
    split
    next hfull => exact ⟨fun _ => le_antisymm hsound.bounded hfull, fun _ => rfl⟩
    next hroom => exact ⟨nofun, fun hwaiting => absurd hwaiting.ge hroom⟩

def readStart : LogEntry := sasiLogCmdStart 0x08 0 100 1 0x400 0

def flushOf (now : BitVec 64) : LogLabel :=
  .flush .mainLoop ⟨0, now, (.ok, readStart.line.length)⟩

/-- A command is pushed, and core 0 meanwhile finds the bus free for 60 ms and flushes. -/
def loggedCommand : List LogLabel :=
  [.push readStart, flushOf 0, .pushing, flushOf 0, .pushing, .pushing] ++ List.replicate 9 (flushOf 60000)

theorem log_keeps_lines_flushed :
    ∃ w, Run logStep (sasiLogInit ⟨.ok, .ok, (.ok, sasiLogHeader.length)⟩ []) loggedCommand w ∧
      w.accepted = [readStart] ∧ w.fil = true ∧ w.batch = [] ∧ w.ring.contents = [] ∧
      w.file = sasiLogHeader ++ readStart.line := by
  have hinit : sasiLogInit ⟨.ok, .ok, (.ok, sasiLogHeader.length)⟩ [] = .initial true true sasiLogHeader := by
    simp [sasiLogInit]
  obtain ⟨w, hw, haccepted, hopen, hbatch, hring⟩ : ∃ w,
      follow logStep (fun _ _ => True) (.initial true true sasiLogHeader) loggedCommand = some w ∧
        w.accepted = [readStart] ∧ w.fil = true ∧ w.batch = [] ∧ w.ring.contents = [] :=
    ⟨_, rfl, rfl, rfl, rfl, rfl⟩
  have hrun : Run logStep (sasiLogInit ⟨.ok, .ok, (.ok, sasiLogHeader.length)⟩ []) loggedCommand w :=
    hinit ▸ Guarded.of_follow hw
  obtain ⟨text, hfile, -, hall⟩ := (log_keeps_lines hrun).1
  have htext := hall hopen
  rw [hbatch, hring, haccepted] at htext
  refine ⟨w, hrun, haccepted, hopen, hbatch, hring, ?_⟩
  rw [hfile, hinit]
  simpa [linesOf, LogWorld.initial] using htext

end PicoV9k.SasiLog
