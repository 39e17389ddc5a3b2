import PicoV9k.HandshakeStage
import PicoV9k.IsrEffects
import PicoV9k.TransitionRun

/-!
# Any host

Core 1 under FIFO words of any kind in any order: what the handler does to the
controller, to the flag of RESET and to the queue, and what the worker makes of an
entry whatever state it meets it in.
-/
namespace PicoV9k.Sasi
open PicoV9k.Bus PicoV9k.Storage PicoV9k.Mgmt PicoV9k.Runs

variable {Io σ : Type} {n : ℕ}

inductive BusLabel (Io σ : Type)
  | fifo (event : FifoEvent)
  | worker (io : SectorIo Io)
  | service (storage : Routing σ)

def Bridge.step (reg : Registry Io σ) (b : Bridge σ n) : BusLabel Io σ → Option (Bridge σ n)
  | .fifo event => some (b.isr event).1
  | .worker io => b.workerStep reg io
  | .service storage => b.service storage

/-- Core 1 at power-up without a disk. -/
def bareBridge : Bridge Unit 2 := .initial (fun _ => 0) (.initial ()) (.initial Nat.two_pos)

def followBus (guard : Bridge Unit 2 → BusLabel Unit Unit → Prop) [∀ b l, Decidable (guard b l)]
    (labels : List (BusLabel Unit Unit)) : Option (Bridge Unit 2) :=
  follow (Bridge.step fun _ => none) guard bareBridge labels

def workerTurns (k : ℕ) : List (BusLabel Unit Unit) := List.replicate k (.worker ⟨(), fun _ => .ok⟩)

/-- A write of CONTROL with the RESET bit. -/
def isResetWrite : FifoEvent → Bool
  | .write .control data => hasBit data dmaResetBit
  | _ => false

lemma isReset_iff (e : Entry) : e.IsReset ↔ isResetWrite e.event = true := by
  constructor
  · rintro ⟨data, he, hr⟩
    rw [he]
    exact hr
  · intro h
    unfold isResetWrite at h
    split at h
    next data he => exact ⟨data, he, h⟩
    · cases h

/-- The words the handler queues. -/
def isDeferred : FifoEvent → Bool
  | .readCommit .data => true
  | .write target _ => Reg.deferred target
  | _ => false

lemma controlWritten_controller (c : Card σ) (data : Byte) (seenAt : ℕ) :
    (c.controlWritten data seenAt).controller = c.controller := by
  unfold Card.controlWritten
  split <;> rfl

lemma writeThrough_controller (b : Bridge σ n) (target : Reg) (data : Byte) :
    (b.writeThrough target data).card.controller = b.card.controller := by
  cases target with
  | control => exact controlWritten_controller _ data b.fifoEntries
  | _ => rfl

lemma regWrite_card (b : Bridge σ n) (target : Reg) (data : Byte) :
    ∃ d, (b.regWrite target data).card = (b.writeThrough target d).card := by
  unfold Bridge.regWrite
  dsimp only
  split
  · exact ⟨_, enqueue_card _ _⟩
  · exact ⟨_, rfl⟩

/-- The handler leaves the controller to the worker. -/
theorem isr_controller (b : Bridge σ n) (event : FifoEvent) :
    (b.isr event).1.card.controller = b.card.controller := by
  cases event with
  | prefetch target => cases target <;> rfl
  | readCommit target =>
    cases target with
    | data =>
      rw [isr_commit_data, enqueue_card]
      rfl
    | _ => rfl
  | write target data =>
    have hwrite : ((Bridge.tick b).regWrite target data).card.controller = b.card.controller := by
      obtain ⟨d, hd⟩ := regWrite_card (Bridge.tick b) target data
      rw [hd]
      exact writeThrough_controller (Bridge.tick b) target d
    cases target with
    | outside => rfl
    | _ => exact hwrite
  | unknown => rfl

/-- The flag of RESET rises with a RESET write and is otherwise left alone. -/
theorem isr_resetRequested (b : Bridge σ n) (event : FifoEvent) :
    (b.isr event).1.card.dma.resetRequested =
      (isResetWrite event || b.card.dma.resetRequested) := by
  cases event with
  | prefetch target => cases target <;> rfl
  | readCommit target =>
    cases target with
    | data =>
      rw [isr_commit_data, enqueue_card]
      rfl
    | _ => rfl
  | write target data =>
    cases target with
    | control =>
      by_cases hr : hasBit data dmaResetBit = true
      · rw [isr_write_reset b hr, enqueue_card]
        show true = (hasBit data dmaResetBit || _)
        rw [hr, Bool.true_or]
      · have hr' := Bool.eq_false_iff.mpr hr
        rw [isr_write_control b hr', enqueue_card]
        show b.card.dma.resetRequested = (hasBit data dmaResetBit || _)
        rw [hr', Bool.false_or]
    | data =>
      rw [isr_write_data, enqueue_card]
      rfl
    | status | statusAlias =>
      show (((Bridge.tick b).writeThrough _ data).enqueue _).card.dma.resetRequested = _
      rw [enqueue_card]
      rfl
    | _ => rfl
  | unknown => rfl

lemma enqueue_queue (b : Bridge σ n) (event : FifoEvent) :
    (b.enqueue event).queue = if b.Room then b.queue ++ [⟨event, b.fifoEntries⟩] else b.queue := by
  by_cases hroom : b.Room
  · rw [enqueue_room hroom, if_pos hroom]
    rfl
  · rw [enqueue_full hroom, if_neg hroom]

/-- A deferred word is queued, if there is room. -/
theorem isr_queue (b : Bridge σ n) (event : FifoEvent) :
    (b.isr event).1.queue =
      if isDeferred event = true ∧ b.Room then b.queue ++ [⟨event, b.fifoEntries + 1⟩]
      else b.queue := by
  have hdeferred (c : Bridge σ n) (hq : c.queue = b.queue) (hf : c.fifoEntries = b.fifoEntries + 1)
      (hd : isDeferred event = true) : (c.enqueue event).queue =
        if isDeferred event = true ∧ b.Room then b.queue ++ [⟨event, b.fifoEntries + 1⟩]
        else b.queue := by
    have hroom : c.Room ↔ b.Room := by
      unfold Bridge.Room
      rw [hq]
    rw [enqueue_queue, hq, hf]
    simp only [hroom, hd, true_and]
  cases event with
  | prefetch target => cases target <;> rfl
  | readCommit target =>
    cases target with
    | data => exact hdeferred _ rfl rfl rfl
    | _ => rfl
  | write target data =>
    cases target with
    | control | data | status | statusAlias => exact hdeferred _ rfl rfl rfl
    | _ => rfl
  | unknown => rfl

lemma isr_transfer (b : Bridge σ n) (event : FifoEvent) :
    (b.isr event).1.transfer = b.transfer := by
  cases event with
  | prefetch target => cases target <;> rfl
  | readCommit target =>
    cases target with
    | data => exact enqueue_transfer _ _
    | _ => rfl
  | write target data =>
    cases target with
    | control | data | status | statusAlias => exact enqueue_transfer _ _
    | _ => rfl
  | unknown => rfl

/-- A DATA byte is a CDB byte, the last of a CDB, a byte of a data-out list, or nothing. -/
inductive DataTaken (c : Card σ) (seenAt : ℕ) (data : Byte) : Card σ × Option Transfer → Prop
  | more (hp : c.dma.busCtrl &&& phaseMask = sasiCtlBit)
      (hlen : commandComplete (c.cmdBuffer ++ [data]) = false) :
      DataTaken c seenAt data (sasiRequestCmdByte { c with cmdBuffer := c.cmdBuffer ++ [data] }, none)
  | whole {r : Card σ × Option Transfer} (hp : c.dma.busCtrl &&& phaseMask = sasiCtlBit)
      (hr : Routed (completedCdb c seenAt data) (c.cmdBuffer ++ [data]) r) :
      DataTaken c seenAt data (afterRoute r)
  | list (hp : c.dma.busCtrl &&& phaseMask ≠ sasiCtlBit) (hlist : 0 < c.dma.dataOutExpected) :
      DataTaken c seenAt data (handleSasiDataOutByte c data, none)
  | ignored (hp : c.dma.busCtrl &&& phaseMask ≠ sasiCtlBit) (hlist : c.dma.dataOutExpected = 0) :
      DataTaken c seenAt data (c, none)

theorem deferProcessData_taken (io : SectorIo Io) (c : Card σ) (seenAt : ℕ) (data : Byte) :
    DataTaken (acceptDataByte c data) seenAt data (deferProcessData io c seenAt data) := by
  unfold deferProcessData
  dsimp only
  split
  next hp =>
    unfold handleSasiCommandByte
    dsimp only
    split
    next hcomplete =>
      exact .whole hp (routeToSasiTarget_routed io (completedCdb (acceptDataByte c data) seenAt data) _)
    next hcomplete => exact .more hp (Bool.eq_false_iff.mpr hcomplete)
  next hp =>
    split
    next hlist => exact .list hp hlist
    next hlist => exact .ignored hp (Nat.eq_zero_of_not_pos hlist)

lemma acceptDataByte_kept (c : Card σ) (data : Byte) :
    (acceptDataByte c data).dma.resetRequested = c.dma.resetRequested ∧
      (acceptDataByte c data).dma.dataOutExpected = c.dma.dataOutExpected ∧
      (acceptDataByte c data).cmdBuffer = c.cmdBuffer ∧
      (acceptDataByte c data).dma.control = c.dma.control ∧
      (acceptDataByte c data).dma.statusPending = c.dma.statusPending := by
  unfold acceptDataByte
  dsimp only
  split
  · split <;> exact ⟨rfl, rfl, rfl, rfl, rfl⟩
  · split <;> exact ⟨rfl, rfl, rfl, rfl, rfl⟩

lemma acceptDataByte_dmaEnabled (c : Card σ) (data : Byte) :
    (acceptDataByte c data).dma.dmaEnabled = c.dma.dmaEnabled := by
  unfold acceptDataByte
  dsimp only
  split
  · split <;> rfl
  · split <;> rfl

lemma handleSasiDataOutByte_requested (c : Card σ) (data : Byte) :
    (handleSasiDataOutByte c data).dma.resetRequested = c.dma.resetRequested := by
  unfold handleSasiDataOutByte
  dsimp only
  split
  · rfl
  · split <;> rfl

lemma Routed.requested {c : Card σ} {cdb : List Byte} {r : Card σ × Option Transfer}
    (h : Routed c cdb r) : (afterRoute r).1.dma.resetRequested = c.dma.resetRequested := by
  cases h with
  | moving hop hc hlog haddr => exact hc.requested
  | completed b hop hc => exact hc.requested
  | expecting hop => rfl

/-- A transfer starts inside the address space. -/
lemma Routed.address {c : Card σ} {cdb : List Byte} {r : Card σ × Option Transfer}
    (h : Routed c cdb r) : ∀ t ∈ (afterRoute r).2, t.localDmaAddr < ramSize := by
  intro t ht
  cases h with
  | moving hop hc hlog haddr => exact Option.some.inj ht ▸ haddr
  | completed b hop hc => cases ht
  | expecting hop => cases ht

lemma DataTaken.requested {c : Card σ} {seenAt : ℕ} {data : Byte} {r : Card σ × Option Transfer}
    (h : DataTaken c seenAt data r) : r.1.dma.resetRequested = c.dma.resetRequested := by
  cases h with
  | more hp hlen => rfl
  | whole hp hr => exact hr.requested
  | list hp hlist => exact handleSasiDataOutByte_requested c data
  | ignored hp hlist => rfl

lemma DataTaken.address {c : Card σ} {seenAt : ℕ} {data : Byte} {r : Card σ × Option Transfer}
    (h : DataTaken c seenAt data r) : ∀ t ∈ r.2, t.localDmaAddr < ramSize := by
  cases h with
  | whole hp hr => exact hr.address
  | _ => exact fun t ht => by cases ht

lemma deferProcessRead_cache (c : Card σ) (target : Reg) : (deferProcessRead c target).cache = c.cache := by
  unfold deferProcessRead
  cases target with
  | data =>
    dsimp only
    split
    · rfl
    · split
      · split <;> rfl
      · split <;> rfl
  | _ => rfl

lemma deferProcessRead_requested (c : Card σ) (target : Reg) :
    (deferProcessRead c target).dma.resetRequested = c.dma.resetRequested := by
  unfold deferProcessRead
  split
  · rfl
  · rfl
  · dsimp only
    split
    · rfl
    · split
      · split <;> rfl
      · split <;> rfl
  · rfl

lemma deferProcessControl_requested (c : Card σ) {data : Byte} (hr : hasBit data dmaResetBit = false) :
    (deferProcessControl c data).dma.resetRequested = c.dma.resetRequested := by
  unfold deferProcessControl
  dsimp only
  rw [if_neg (Bool.eq_false_iff.mp hr)]
  split
  · rfl
  · split <;> rfl

/-- Only a RESET entry lowers the flag. -/
theorem deferProcessEntry_requested (io : SectorIo Io) (c : Card σ) {e : Entry} (he : ¬ e.IsReset) :
    (deferProcessEntry io c e).1.dma.resetRequested = c.dma.resetRequested := by
  obtain ⟨event, seenAt⟩ := e
  cases event with
  | readCommit target => exact deferProcessRead_requested c target
  | write target data =>
    cases target with
    | control =>
      have hr : hasBit data dmaResetBit = false := Bool.eq_false_iff.mpr fun hr => he ⟨data, rfl, hr⟩
      exact deferProcessControl_requested c hr
    | data =>
      exact (deferProcessData_taken io c seenAt data).requested.trans (acceptDataByte_kept c data).1
    | _ => rfl
  | _ => rfl

lemma deferProcessEntry_address (io : SectorIo Io) (c : Card σ) (e : Entry) :
    ∀ t ∈ (deferProcessEntry io c e).2, t.localDmaAddr < ramSize := by
  have hnone (d : Card σ) : ∀ t ∈ ((d, none) : Card σ × Option Transfer).2, t.localDmaAddr < ramSize :=
    fun t ht => by cases ht
  obtain ⟨event, seenAt⟩ := e
  cases event with
  | readCommit target => exact hnone _
  | write target data =>
    cases target with
    | data => exact (deferProcessData_taken io c seenAt data).address
    | _ => exact hnone _
  | _ => exact hnone _

/-- Sectors are moved inside the address space. -/
def Bridge.Addressed (b : Bridge σ n) : Prop := ∀ t ∈ b.transfer, t.localDmaAddr < ramSize

/-- The worker at a boundary, or with the next entry. -/
inductive Worked (reg : Registry Io σ) (io : SectorIo Io) (b : Bridge σ n) : Bridge σ n → Prop
  | boundary {t : Transfer} {r : Card σ × Option Transfer} (ht : b.transfer = some t)
      (hr : Boundary b.card r) : Worked reg io b (b.afterBoundary r)
  | entry {e : Entry} {rest : List Entry} (ht : b.transfer = none) (hq : b.queue = e :: rest) :
      Worked reg io b (b.afterEntry rest (deferProcessEntry io b.card e))

theorem workerStep_worked (reg : Registry Io σ) {io : SectorIo Io} {b b' : Bridge σ n}
    (ha : b.Addressed) (hs : b.workerStep reg io = some b') : Worked reg io b b' := by
  unfold Bridge.workerStep at hs
  split at hs
  next _ _ t ht =>
    cases hs
    exact .boundary ht (transferStep_boundary reg io b.card (ha t ht))
  · cases hs
  next e rest ht hq =>
    cases hs
    exact .entry ht hq

lemma Worked.addressed {reg : Registry Io σ} {io : SectorIo Io} {b b' : Bridge σ n}
    (h : Worked reg io b b') : b'.Addressed := by
  cases h with
  | boundary ht hr =>
    cases hr with
    | moved hreset hc haddr => exact fun t ht => Option.some.inj ht ▸ haddr
    | abandoned hreset => exact fun t ht => by cases ht
    | completed s hreset hc => exact fun t ht => by cases ht
  | entry ht hq => exact deferProcessEntry_address io _ _

end PicoV9k.Sasi
