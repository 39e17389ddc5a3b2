import PicoV9k.RegisterIsr

/-!
# What one FIFO word changes

The handler writes the cells, the address bytes and the RESET flag, and appends to
the queue; the controller itself belongs to the worker.
-/
namespace PicoV9k.Sasi
open PicoV9k.Bus PicoV9k.Storage PicoV9k.Mgmt

variable {σ : Type} {n : ℕ}

/-- There is room for one more entry. -/
def Bridge.Room (b : Bridge σ n) : Prop := b.queue.length + 1 < deferQueueSize

instance (b : Bridge σ n) : Decidable b.Room := inferInstanceAs (Decidable (_ < _))

def Bridge.tick (b : Bridge σ n) : Bridge σ n := { b with fifoEntries := b.fifoEntries + 1 }

/-- The bridge after an entry has been queued at the current time. -/
def Bridge.queued (b : Bridge σ n) (event : FifoEvent) : Bridge σ n :=
  { b with queue := b.queue ++ [⟨event, b.fifoEntries⟩] }

lemma enqueue_room {b : Bridge σ n} (h : b.Room) (event : FifoEvent) :
    b.enqueue event = b.queued event := if_pos h

lemma enqueue_full {b : Bridge σ n} (h : ¬ b.Room) (event : FifoEvent) :
    b.enqueue event = { b with drops := b.drops + 1 } := if_neg h

@[simp] lemma enqueue_card (b : Bridge σ n) (event : FifoEvent) : (b.enqueue event).card = b.card := by
  unfold Bridge.enqueue
  split <;> rfl

@[simp] lemma enqueue_transfer (b : Bridge σ n) (event : FifoEvent) :
    (b.enqueue event).transfer = b.transfer := by
  unfold Bridge.enqueue
  split <;> rfl

@[simp] lemma enqueue_chan (b : Bridge σ n) (event : FifoEvent) : (b.enqueue event).chan = b.chan := by
  unfold Bridge.enqueue
  split <;> rfl

@[simp] lemma enqueue_fifoEntries (b : Bridge σ n) (event : FifoEvent) :
    (b.enqueue event).fifoEntries = b.fifoEntries := by
  unfold Bridge.enqueue
  split <;> rfl

/-- The card after a CONTROL write without RESET: the handler has predicted a phase. -/
def Card.predicted (c : Card σ) (data : Byte) : Card σ :=
  { c with cache := { CachedRegs.predictControl c.cache data with control := data } }

/-- The card after a RESET write. -/
def Card.resetSeen (c : Card σ) (data : Byte) (seenAt : ℕ) : Card σ :=
  { c.announceReset seenAt with
    cache := { c.cache.setStatus 0x00 with data := 0x00, control := data } }

/-- The card after an address byte was written through. -/
def Card.addressed (c : Card σ) (target : Reg) (data : Byte) : Card σ :=
  { c with
    dma := { c.dma with dmaAddress := DmaAddress.store c.dma.dmaAddress target data }
    cache := CachedRegs.store c.cache target (match target with
      | .addrH => data &&& 0x0F
      | _ => data) }

/-- The card after the host read DATA. -/
def Card.dataTaken (c : Card σ) : Card σ := { c with cache := CachedRegs.dataRead c.cache }

def Bridge.withCard (b : Bridge σ n) (c : Card σ) : Bridge σ n :=
  { b with card := c, pendingPrefetch := b.pendingPrefetch - 1 }

lemma isr_write_data (b : Bridge σ n) (data : Byte) :
    (b.isr (.write .data data)).1 = (b.tick.withCard b.card).enqueue (.write .data data) := rfl

lemma isr_write_control (b : Bridge σ n) {data : Byte} (h : hasBit data dmaResetBit = false) :
    (b.isr (.write .control data)).1 =
      (b.tick.withCard (b.card.predicted data)).enqueue (.write .control data) := by
  have hplain : b.card.controlWritten data (b.fifoEntries + 1) =
      { b.card with cache := CachedRegs.predictControl b.card.cache data } := by
    unfold Card.controlWritten
    rw [h]
    rfl
  show Bridge.enqueue (b.tick.withCard { b.card.controlWritten data (b.fifoEntries + 1) with
    cache := CachedRegs.store (b.card.controlWritten data (b.fifoEntries + 1)).cache .control
      data }) _ = _
  rw [hplain]
  rfl

lemma isr_write_reset (b : Bridge σ n) {data : Byte} (h : hasBit data dmaResetBit = true) :
    (b.isr (.write .control data)).1 =
      (b.tick.withCard (b.card.resetSeen data (b.fifoEntries + 1))).enqueue
        (.write .control data) := by
  have hreset : b.card.controlWritten data (b.fifoEntries + 1) =
      { b.card.announceReset (b.fifoEntries + 1) with
        cache := { b.card.cache.setStatus 0x00 with data := 0x00 } } := by
    unfold Card.controlWritten CachedRegs.predictControl
    rw [h]
    rfl
  show Bridge.enqueue (b.tick.withCard { b.card.controlWritten data (b.fifoEntries + 1) with
    cache := CachedRegs.store (b.card.controlWritten data (b.fifoEntries + 1)).cache .control
      data }) _ = _
  rw [hreset]
  rfl

lemma isr_write_address (b : Bridge σ n) {target : Reg} (data : Byte)
    (h : Reg.addressByte target = true) :
    (b.isr (.write target data)).1 = b.tick.withCard (b.card.addressed target data) := by
  cases target with
  | addrH =>
    have hmask : data &&& 0x0F &&& 0x0F = data &&& 0x0F := by rw [BitVec.and_assoc, BitVec.and_self]
    have hstore : DmaAddress.store b.card.dma.dmaAddress .addrH (data &&& 0x0F) =
        DmaAddress.store b.card.dma.dmaAddress .addrH data := by
      simp only [DmaAddress.store, hmask]
    show b.tick.withCard { b.card with
      dma := { b.card.dma with dmaAddress := DmaAddress.store b.card.dma.dmaAddress .addrH _ }
      cache := _ } = _
    rw [hstore]
    rfl
  | addrL => rfl
  | addrM => rfl
  | _ => cases h

lemma isr_prefetch_other (b : Bridge σ n) {target : Reg} (h : target ≠ .data) (ho : target ≠ .outside) :
    b.isr (.prefetch target) =
      ({ b.tick with pendingPrefetch := b.pendingPrefetch + 1 }, some (b.cell target)) := by
  cases target <;> first | rfl | exact absurd rfl h | exact absurd rfl ho

lemma isr_commit_data (b : Bridge σ n) :
    (b.isr (.readCommit .data)).1 =
      (b.tick.withCard b.card.dataTaken).enqueue (.readCommit .data) := rfl

lemma isr_commit_address (b : Bridge σ n) {target : Reg} (h : Reg.addressByte target = true) :
    (b.isr (.readCommit target)).1 = b.tick.withCard b.card := by
  cases target <;> first | rfl | cases h

lemma predicted_plain {c : Card σ} {data : Byte} (hr : hasBit data dmaResetBit = false)
    (h : hasBit data dmaSelectBit = hasBit c.cache.control dmaSelectBit) :
    (c.predicted data).cache = { c.cache with control := data } := by
  have hup : ¬ (hasBit data dmaSelectBit && !hasBit c.cache.control dmaSelectBit) = true := by
    rw [h, Bool.and_not_self]; exact Bool.false_ne_true
  have hdown : ¬ (!hasBit data dmaSelectBit && hasBit c.cache.control dmaSelectBit) = true := by
    rw [h, Bool.not_and_self]; exact Bool.false_ne_true
  simp only [Card.predicted, CachedRegs.predictControl, hr, if_neg hup, if_neg hdown]
  rfl

lemma predicted_select {c : Card σ} {data : Byte} (hr : hasBit data dmaResetBit = false)
    (hs : hasBit data dmaSelectBit = true) (h : hasBit c.cache.control dmaSelectBit = false) :
    (c.predicted data).cache = { c.cache.setStatus sasiBsyBit with data := 0, control := data } := by
  simp only [Card.predicted, CachedRegs.predictControl, hr, hs, h]
  rfl

lemma predicted_release {c : Card σ} {data : Byte} (hr : hasBit data dmaResetBit = false)
    (hs : hasBit data dmaSelectBit = false) (h : hasBit c.cache.control dmaSelectBit = true) :
    (c.predicted data).cache =
      { c.cache.setStatus (sasiBsyBit ||| sasiReqBit ||| sasiCtlBit) with
        data := 0, control := data } := by
  simp only [Card.predicted, CachedRegs.predictControl, hr, hs, h]
  rfl

end PicoV9k.Sasi
