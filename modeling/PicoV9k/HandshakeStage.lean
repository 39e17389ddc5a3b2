import PicoV9k.HostHandshake

/-!
# The stages of the handshake

`Stage` is the synchronous target: what a controller would be doing if every
access took effect at once. `Stage.Holds` says when the controller of the worker is
at a stage, and each queue entry moves it along `Stage.Step`; since the queue holds
the accesses the worker has not seen, `Stage.Steps` leads from the stage of the
worker to the stage the host has brought about.
-/
namespace PicoV9k.Sasi
open PicoV9k.Bus PicoV9k.Storage

variable {Io σ : Type}

/-- Bus free after a DATA byte, selected, collecting a CDB, executing it, offering its
status and then its message; a stranded controller reacts to nothing but RESET. -/
inductive Stage
  | free (last : Option Byte)
  | selected (target : Byte)
  | command (target : Byte) (bytes : List Byte)
  | executing (target : Byte) (cdb : List Byte) (issuedAt : ℕ)
  | stranded
  | status (issuedAt : ℕ) (value : Byte)
  | message (value : Byte)
  deriving DecidableEq, Repr

/-- What one access makes of a stage. -/
inductive Stage.Step : Stage → Entry → Stage → Prop
  | reset (w : Stage) {data : Byte} (seenAt : ℕ) (hr : hasBit data dmaResetBit = true)
      (hs : hasBit data dmaSelectBit = false) : Step w ⟨.write .control data, seenAt⟩ (.free none)
  | configure (last : Option Byte) {data : Byte} (seenAt : ℕ)
      (hr : hasBit data dmaResetBit = false) (hs : hasBit data dmaSelectBit = false) :
      Step (.free last) ⟨.write .control data, seenAt⟩ (.free last)
  | target (last : Option Byte) (data : Byte) (seenAt : ℕ) :
      Step (.free last) ⟨.write .data data, seenAt⟩ (.free (some data))
  | select (last : Byte) {data : Byte} (seenAt : ℕ) (hr : hasBit data dmaResetBit = false)
      (hs : hasBit data dmaSelectBit = true) :
      Step (.free (some last)) ⟨.write .control data, seenAt⟩ (.selected (sasiExtractTargetId last))
  | release (target : Byte) {data : Byte} (seenAt : ℕ) (hr : hasBit data dmaResetBit = false)
      (hs : hasBit data dmaSelectBit = false) :
      Step (.selected target) ⟨.write .control data, seenAt⟩ (.command target [])
  | byte (target : Byte) {bytes : List Byte} (data : Byte) (seenAt : ℕ)
      (h : bytes.length + 1 < cdbLength) :
      Step (.command target bytes) ⟨.write .data data, seenAt⟩ (.command target (bytes ++ [data]))
  | lastByte (target : Byte) {bytes : List Byte} (data : Byte) (seenAt : ℕ)
      (h : bytes.length + 1 = cdbLength) :
      Step (.command target bytes) ⟨.write .data data, seenAt⟩
        (.executing target (bytes ++ [data]) seenAt)
  | statusRead (issuedAt : ℕ) (value : Byte) (seenAt : ℕ) :
      Step (.status issuedAt value) ⟨.readCommit .data, seenAt⟩ (.message value)
  | messageRead (value : Byte) (seenAt : ℕ) :
      Step (.message value) ⟨.readCommit .data, seenAt⟩ (.free none)

inductive Stage.Steps : Stage → List Entry → Stage → Prop
  | nil (w : Stage) : Steps w [] w
  | cons {w w' h : Stage} {e : Entry} {q : List Entry} (hs : Step w e w') (hq : Steps w' q h) :
      Steps w (e :: q) h

lemma Stage.Steps.snoc {w h h' : Stage} {q : List Entry} {e : Entry} (hq : Steps w q h)
    (hs : Step h e h') : Steps w (q ++ [e]) h' := by
  induction hq with
  | nil w => exact .cons hs (.nil _)
  | cons hs' _ ih => exact .cons hs' (ih hs)

def Entry.IsReset (e : Entry) : Prop := ∃ data, e.event = .write .control data ∧ hasBit data dmaResetBit

def Stage.Busy : Stage → Prop
  | .executing .. | .stranded => True
  | _ => False

/-- No access but RESET is taken while a command executes. -/
lemma Stage.Step.of_busy {w w' : Stage} {e : Entry} (h : Step w e w') (hw : w.Busy) :
    e.IsReset ∧ ∀ v, Step v e w' := by
  cases h with
  | reset w seenAt hr hs => exact ⟨⟨_, rfl, hr⟩, fun v => .reset v seenAt hr hs⟩
  | _ => exact hw.elim

lemma Stage.Steps.of_busy {w h : Stage} {q : List Entry} (hq : Steps w q h) (hw : w.Busy) :
    (q = [] ∧ h = w) ∨ (∃ e rest, q = e :: rest ∧ e.IsReset) ∧ ∀ v, Steps v q h := by
  cases hq with
  | nil w => exact .inl ⟨rfl, rfl⟩
  | cons hs hq =>
    obtain ⟨hr, hany⟩ := hs.of_busy hw
    exact .inr ⟨⟨_, _, rfl, hr⟩, fun v => .cons (hany v) hq⟩

lemma Stage.Step.not_status {w w' : Stage} {e : Entry} (h : Step w e w') {τ : ℕ} {v : Byte} :
    w' ≠ .status τ v := by
  cases h <;> exact Stage.noConfusion

/-- Only an empty queue leads to the status phase, since the worker enters it by itself. -/
lemma Stage.Steps.status {w : Stage} {q : List Entry} {τ : ℕ} {v : Byte}
    (hq : Steps w q (.status τ v)) : q = [] ∧ w = .status τ v := by
  generalize hh : Stage.status τ v = h at hq
  induction hq with
  | nil w => exact ⟨rfl, rfl⟩
  | cons hs _ ih => exact absurd (ih hh).2 (hh ▸ hs.not_status)

/-- The part of core 1 that decides how the next entry is taken. -/
structure Controller where
  busCtrl : Byte
  control : Byte
  command : Byte
  nonDmaReq : Bool
  statusPending : Bool
  dataOutExpected : ℕ
  selectedTarget : Byte
  status : Byte
  cmdBuffer : List Byte
  issuedAt : ℕ
  statusOf : Option ℕ

def Card.controller (c : Card σ) : Controller where
  busCtrl := c.dma.busCtrl
  control := c.dma.control
  command := c.dma.command
  nonDmaReq := c.dma.nonDmaReq
  statusPending := c.dma.statusPending
  dataOutExpected := c.dma.dataOutExpected
  selectedTarget := c.dma.selectedTarget
  status := c.dma.status
  cmdBuffer := c.cmdBuffer
  issuedAt := c.history.issuedAt
  statusOf := c.history.statusOf

/-- The controller waits for the host. -/
structure Controller.Rests (k : Controller) (bus : Byte) (select req : Bool) (bytes : List Byte) :
    Prop where
  busCtrl : k.busCtrl = bus
  select : hasBit k.control dmaSelectBit = select
  req : k.nonDmaReq = req
  noData : k.dataOutExpected = 0
  cmdBuffer : k.cmdBuffer = bytes

/-- The controller works on a command. -/
structure Controller.Works (k : Controller) (target : Byte) (cdb : List Byte) (issuedAt : ℕ) :
    Prop where
  busy : busyBus k.busCtrl = true
  select : hasBit k.control dmaSelectBit = false
  noData : k.dataOutExpected = 0
  target : k.selectedTarget = target
  cmdBuffer : k.cmdBuffer = cdb
  issuedAt : k.issuedAt = issuedAt

inductive Stage.Holds : Stage → Controller → Option Transfer → Prop
  | free {k : Controller} {last : Option Byte} (h : k.Rests 0x00 false false [])
      (hlast : ∀ b ∈ last, k.command = b) : Holds (.free last) k none
  | selected {k : Controller} {target : Byte} (h : k.Rests 0x24 true false [])
      (ht : k.selectedTarget = target) : Holds (.selected target) k none
  | command {k : Controller} {target : Byte} {bytes : List Byte} (h : k.Rests 0x0E false true bytes)
      (ht : k.selectedTarget = target) (hlen : bytes.length < cdbLength) :
      Holds (.command target bytes) k none
  | executing {k : Controller} {target : Byte} {cdb : List Byte} {issuedAt : ℕ} {t : Transfer}
      (h : k.Works target cdb issuedAt) (haddr : t.localDmaAddr < ramSize) :
      Holds (.executing target cdb issuedAt) k (some t)
  | stranded {k : Controller} (h : busyBus k.busCtrl = true) : Holds .stranded k none
  | status {k : Controller} {issuedAt : ℕ} {value : Byte} (h : k.Rests 0x0F false true [])
      (hp : k.statusPending = true) (hv : k.status = value) (ho : k.statusOf = some issuedAt) :
      Holds (.status issuedAt value) k none
  | message {k : Controller} {value : Byte} (h : k.Rests 0x1F false true []) :
      Holds (.message value) k none

lemma Stage.Holds.busy_bus {w : Stage} {k : Controller} {t : Option Transfer} (h : w.Holds k t)
    (hb : w.Busy) : busyBus k.busCtrl = true := by
  cases h with
  | executing hworks _ => exact hworks.busy
  | stranded hbus => exact hbus
  | _ => exact hb.elim

lemma Stage.Holds.offered {τ : ℕ} {value : Byte} {k : Controller} {t : Option Transfer}
    (h : (Stage.status τ value).Holds k t) : k.status = value ∧ k.statusOf = some τ := by
  cases h with | status _ _ hv ho => exact ⟨hv, ho⟩

lemma Stage.Holds.issued {target : Byte} {cdb : List Byte} {τ : ℕ} {k : Controller} {t : Option Transfer}
    (h : (Stage.executing target cdb τ).Holds k t) : k.issuedAt = τ := by
  cases h with | executing hworks _ => exact hworks.issuedAt

lemma Stage.Holds.short {target : Byte} {bytes : List Byte} {k : Controller} {t : Option Transfer}
    (h : (Stage.command target bytes).Holds k t) : bytes.length < cdbLength := by
  cases h with | command _ _ hlen => exact hlen

lemma Stage.Holds.waiting {target : Byte} {bytes : List Byte} {k : Controller} {t : Option Transfer}
    (h : (Stage.command target bytes).Holds k t) : t = none := by
  cases h with | command _ _ _ => rfl

lemma Executed.controller {c d : Card σ} (h : Executed c d) :
    d.controller = { c.controller with busCtrl := d.dma.busCtrl } := by
  have hd := h.dma
  simp only [outsideExecution, Registers.mk.injEq] at hd
  simp [Card.controller, hd, h.cmdBuffer, h.issuedAt, h.statusOf]

lemma Executed.works {c d : Card σ} (h : Executed c d) {target : Byte} {cdb : List Byte} {τ : ℕ}
    (hc : c.controller.Works target cdb τ) : d.controller.Works target cdb τ := by
  rw [h.controller]
  exact ⟨h.busy hc.busy, hc.select, hc.noData, hc.target, hc.cmdBuffer, hc.issuedAt⟩

/-- The end of a command: its status byte is offered and the CDB buffer is empty. -/
lemma enterStatus_holds {c : Card σ} {target : Byte} {cdb : List Byte} {τ : ℕ}
    (h : c.controller.Works target cdb τ) (b : Byte) :
    (Stage.status τ b).Holds
      (Card.controller { sasiEnterStatusPhase c b with cmdBuffer := [] }) none := by
  refine .status ⟨?_, h.select, rfl, h.noData, rfl⟩ rfl rfl (congrArg some h.issuedAt)
  exact statusRequest_busy _ h.busy

/-- What no entry but RESET and the last CDB byte changes. -/
structure Kept (c c' : Card σ) : Prop where
  history : c'.history = c.history
  address : c'.dma.dmaAddress = c.dma.dmaAddress
  requested : c'.dma.resetRequested = c.dma.resetRequested
  control : c'.cache.control = c.cache.control

/-- The CDB that the entry makes whole, if it is a DATA byte in the command phase. -/
def Card.wholeCdb (c : Card σ) (e : Entry) : Option (List Byte) :=
  match e.event with
  | .write .data data =>
    if c.dma.busCtrl &&& phaseMask = sasiCtlBit ∧ commandComplete (c.cmdBuffer ++ [data]) then
      some (c.cmdBuffer ++ [data])
    else none
  | _ => none

/-- The card that `route_to_sasi_target` finds. -/
structure Ready (c d : Card σ) (target : Byte) (cdb : List Byte) (e : Entry) : Prop where
  works : d.controller.Works target cdb e.seenAt
  whole : c.wholeCdb e = some cdb
  history : d.history = { c.history with issuedAt := e.seenAt }
  dmaEnabled : d.dma.dmaEnabled = c.dma.dmaEnabled
  address : d.dma.dmaAddress = c.dma.dmaAddress
  requested : d.dma.resetRequested = c.dma.resetRequested
  control : d.cache.control = c.cache.control
  synced : d.Synced

section Ready

variable {c d : Card σ} {target : Byte} {cdb : List Byte} {e : Entry}

lemma Ready.issuedAt (h : Ready c d target cdb e) : d.history.issuedAt = e.seenAt :=
  (congrArg History.issuedAt h.history :)

lemma Ready.resetAt (h : Ready c d target cdb e) : d.history.resetAt = c.history.resetAt :=
  (congrArg History.resetAt h.history :)

lemma Ready.log (h : Ready c d target cdb e) : d.history.log = c.history.log :=
  (congrArg History.log h.history :)

lemma Ready.calm (h : Ready c d target cdb e) : d.Calm := by
  have hsync : d.cache.status = d.dma.busCtrl &&& statusMask := h.synced
  show d.cache.status &&& phaseMask ≠ _
  rw [hsync]
  exact busyBus_calm _ h.works.busy

end Ready

/-- The card after RESET: bus free, and the status cells cleared. -/
def resetCard (c : Card σ) (data : Byte) : Card σ :=
  let d := dmaDeviceReset { c with dma := { c.dma with control := data } }
  { d with cache := { d.cache.setStatus 0x00 with data := 0x00 } }

/-- The return from a routed command empties the CDB buffer, unless sectors are to follow. -/
def afterRoute : Card σ × Option Transfer → Card σ × Option Transfer
  | (c, none) => ({ c with cmdBuffer := [] }, none)
  | (c, some t) => (c, some t)

/-- Everything the worker can do with the next entry. -/
inductive Taken (c : Card σ) (e : Entry) : Stage → Card σ × Option Transfer → Prop
  | quiet {w : Stage} {c' : Card σ} (hw : w.Holds c'.controller none) (hbusy : ¬ w.Busy)
      (hk : Kept c c') (hcells : c'.cache.status = c.cache.status ∨
        c'.cache.status = phaseCommand ∧ ∃ t bs, w = .command t bs) : Taken c e w (c', none)
  | reset {data : Byte} (he : e.event = .write .control data) (hr : hasBit data dmaResetBit = true)
      (hs : hasBit data dmaSelectBit = false) : Taken c e (.free none) (resetCard c data, none)
  | routed {d : Card σ} {target : Byte} {cdb : List Byte} {r : Card σ × Option Transfer}
      (hd : Ready c d target cdb e) (hr : Routed d cdb r) :
      Taken c e (.executing target cdb e.seenAt) (afterRoute r)

lemma deferProcessControl_reset (c : Card σ) {data : Byte} (hr : hasBit data dmaResetBit = true) :
    deferProcessControl c data = resetCard c data := by
  unfold deferProcessControl
  exact if_pos hr

lemma deferProcessControl_configure {c : Card σ} {data : Byte} (hr : hasBit data dmaResetBit = false)
    (hs : hasBit data dmaSelectBit = hasBit c.dma.control dmaSelectBit) :
    deferProcessControl c data =
      { c with dma := controlModes { c.dma with control := data } data } := by
  have hup : ¬ (hasBit data dmaSelectBit && !hasBit c.dma.control dmaSelectBit) = true := by
    rw [hs, Bool.and_not_self]; exact Bool.false_ne_true
  have hdown : ¬ (!hasBit data dmaSelectBit && hasBit c.dma.control dmaSelectBit) = true := by
    rw [hs, Bool.not_and_self]; exact Bool.false_ne_true
  unfold deferProcessControl
  exact (if_neg (Bool.eq_false_iff.mp hr)).trans ((if_neg hup).trans (if_neg hdown))

lemma deferProcessControl_select {c : Card σ} {data : Byte} (hr : hasBit data dmaResetBit = false)
    (hs : hasBit data dmaSelectBit = true) (hc : hasBit c.dma.control dmaSelectBit = false) :
    deferProcessControl c data =
      { c with dma := selectAsserted (controlModes { c.dma with control := data } data) } := by
  have hup : (hasBit data dmaSelectBit && !hasBit c.dma.control dmaSelectBit) = true := by
    rw [hs, hc]; rfl
  unfold deferProcessControl
  exact (if_neg (Bool.eq_false_iff.mp hr)).trans (if_pos hup)

lemma deferProcessControl_release {c : Card σ} {data : Byte} (hr : hasBit data dmaResetBit = false)
    (hs : hasBit data dmaSelectBit = false) (hc : hasBit c.dma.control dmaSelectBit = true) :
    deferProcessControl c data =
      { c with dma := selectReleased (controlModes { c.dma with control := data } data) } := by
  have hup : ¬ (hasBit data dmaSelectBit && !hasBit c.dma.control dmaSelectBit) = true := by
    rw [hs]; exact Bool.false_ne_true
  have hdown : (!hasBit data dmaSelectBit && hasBit c.dma.control dmaSelectBit) = true := by
    rw [hs, hc]; rfl
  unfold deferProcessControl
  exact (if_neg (Bool.eq_false_iff.mp hr)).trans ((if_neg hup).trans (if_pos hdown))

lemma acceptDataByte_plain {c : Card σ} {data : Byte}
    (hsel : hasBit c.dma.control dmaSelectBit = false)
    (hreq : (c.dma.nonDmaReq && !hasBit c.dma.busCtrl sasiInpBit) = false) :
    acceptDataByte c data = { c with dma := { c.dma with command := data } } := by
  unfold acceptDataByte
  dsimp only
  rw [if_neg (Bool.eq_false_iff.mp hsel)]
  exact if_neg (Bool.eq_false_iff.mp hreq)

/-- The controller acknowledges a CDB byte and drops REQ. -/
def acknowledgeByte (c : Card σ) (data : Byte) : Card σ :=
  Card.sasiBusCtrlSet
    { c with dma := { c.dma with command := data, nonDmaReq := false, assertingAck := true } }
    (acknowledged c.dma.busCtrl)

lemma acceptDataByte_acknowledge {c : Card σ} {data : Byte}
    (hsel : hasBit c.dma.control dmaSelectBit = false)
    (hreq : (c.dma.nonDmaReq && !hasBit c.dma.busCtrl sasiInpBit) = true) :
    acceptDataByte c data = acknowledgeByte c data := by
  unfold acceptDataByte
  dsimp only
  rw [if_neg (Bool.eq_false_iff.mp hsel)]
  exact if_pos hreq

/-- A DATA byte on a free bus is only remembered. -/
lemma deferProcessData_free (io : SectorIo Io) {c : Card σ} (seenAt : ℕ) (data : Byte)
    (h : c.controller.Rests 0x00 false false []) :
    deferProcessData io c seenAt data = ({ c with dma := { c.dma with command := data } }, none) := by
  have hreq : c.dma.nonDmaReq = false := h.req
  have hphase : ¬ c.dma.busCtrl &&& phaseMask = sasiCtlBit := by
    rw [show c.dma.busCtrl = 0 from h.busCtrl]; decide
  have hdata : ¬ 0 < c.dma.dataOutExpected := by
    rw [show c.dma.dataOutExpected = 0 from h.noData]; exact lt_irrefl 0
  unfold deferProcessData
  rw [acceptDataByte_plain h.select (by rw [hreq]; rfl)]
  exact (if_neg hphase).trans (if_neg hdata)

lemma deferProcessData_command (io : SectorIo Io) {c : Card σ} (seenAt : ℕ) (data : Byte)
    {bytes : List Byte} (h : c.controller.Rests 0x0E false true bytes) :
    deferProcessData io c seenAt data =
      handleSasiCommandByte io (acknowledgeByte c data) seenAt data := by
  have hbus : c.dma.busCtrl = 0x0E := h.busCtrl
  have hreq : c.dma.nonDmaReq = true := h.req
  have hphase : (acknowledgeByte c data).dma.busCtrl &&& phaseMask = sasiCtlBit := by
    show acknowledged c.dma.busCtrl &&& phaseMask = sasiCtlBit
    rw [hbus]; decide
  unfold deferProcessData
  rw [acceptDataByte_acknowledge h.select (by rw [hreq, hbus]; decide)]
  exact if_pos hphase

lemma handleSasiCommandByte_more (io : SectorIo Io) (c : Card σ) (seenAt : ℕ) (data : Byte)
    (h : c.cmdBuffer.length + 1 < cdbLength) :
    handleSasiCommandByte io c seenAt data =
      (sasiRequestCmdByte { c with cmdBuffer := c.cmdBuffer ++ [data] }, none) := by
  have hlen : ¬ commandComplete (c.cmdBuffer ++ [data]) = true := by
    rw [commandComplete, decide_eq_true_iff, List.length_append, List.length_singleton]
    exact Nat.not_le.mpr h
  unfold handleSasiCommandByte
  exact if_neg hlen

/-- The card with its complete CDB, at the time of its last byte. -/
def completedCdb (c : Card σ) (seenAt : ℕ) (data : Byte) : Card σ :=
  { c with
    cmdBuffer := c.cmdBuffer ++ [data]
    history := { c.history with issuedAt := seenAt } }

lemma handleSasiCommandByte_last (io : SectorIo Io) (c : Card σ) (seenAt : ℕ) (data : Byte)
    (h : c.cmdBuffer.length + 1 = cdbLength) :
    handleSasiCommandByte io c seenAt data =
      afterRoute (routeToSasiTarget io (completedCdb c seenAt data) (c.cmdBuffer ++ [data])) := by
  have hlen : commandComplete (c.cmdBuffer ++ [data]) = true := by
    rw [commandComplete, decide_eq_true_iff, List.length_append, List.length_singleton, h]
  unfold handleSasiCommandByte
  exact if_pos hlen

lemma acknowledgeByte_works {c : Card σ} {target : Byte} {bytes : List Byte} (data : Byte) (τ : ℕ)
    (h : c.controller.Rests 0x0E false true bytes) (ht : c.controller.selectedTarget = target)
    (hlen : bytes.length + 1 = cdbLength) :
    Ready c (completedCdb (acknowledgeByte c data) τ data) target (bytes ++ [data])
      ⟨.write .data data, τ⟩ := by
  have hbus : c.dma.busCtrl = 0x0E := h.busCtrl
  have hbusy : busyBus (acknowledged c.dma.busCtrl) = true := by rw [hbus]; decide
  have hcdb : c.cmdBuffer ++ [data] = bytes ++ [data] := congrArg (· ++ [data]) h.cmdBuffer
  have hphase : c.dma.busCtrl &&& phaseMask = sasiCtlBit := by rw [hbus]; decide
  have hcomplete : commandComplete (bytes ++ [data]) = true := by
    rw [commandComplete, decide_eq_true_iff, List.length_append, List.length_singleton, hlen]
  have hwhole : c.wholeCdb ⟨.write .data data, τ⟩ = some (bytes ++ [data]) := by
    rw [← hcdb] at hcomplete ⊢
    exact if_pos ⟨hphase, hcomplete⟩
  exact ⟨⟨hbusy, h.select, h.noData, ht, hcdb, rfl⟩, hwhole, rfl, rfl, rfl, rfl, rfl, rfl⟩

/-- A CDB byte that is not the last is answered by the request for the next one. -/
lemma requestNext_taken {c : Card σ} {e : Entry} {target : Byte} {bytes : List Byte} (data : Byte)
    (h : c.controller.Rests 0x0E false true bytes) (ht : c.controller.selectedTarget = target)
    (hlen : bytes.length + 1 < cdbLength) :
    Taken c e (.command target (bytes ++ [data]))
      (sasiRequestCmdByte { acknowledgeByte c data with cmdBuffer := c.cmdBuffer ++ [data] }, none) := by
  have hbus : c.dma.busCtrl = 0x0E := h.busCtrl
  have hreq : commandRequest (acknowledged c.dma.busCtrl) = 0x0E := by rw [hbus]; decide
  refine .quiet (.command ⟨hreq, h.select, rfl, h.noData, ?_⟩ ht ?_) id ⟨rfl, rfl, rfl, rfl⟩ (.inr ?_)
  · exact congrArg (· ++ [data]) h.cmdBuffer
  · simpa using hlen
  · refine ⟨?_, target, _, rfl⟩
    show commandRequest (acknowledged c.dma.busCtrl) &&& statusMask = phaseCommand
    rw [hreq]; decide

/-- One entry, taken at a stage that admits it. -/
theorem deferProcessEntry_taken (io : SectorIo Io) {w w' : Stage} {c : Card σ} {e : Entry}
    (hw : w.Holds c.controller none) (hs : w.Step e w') :
    Taken c e w' (deferProcessEntry io c e) := by
  cases hs with
  | reset w seenAt hr hsel =>
    show Taken c _ _ (deferProcessControl c _, none)
    rw [deferProcessControl_reset c hr]
    exact .reset rfl hr hsel
  | configure last seenAt hr hsel =>
    cases hw with | free h hlast =>
    show Taken c _ _ (deferProcessControl c _, none)
    rw [deferProcessControl_configure hr (hsel.trans h.select.symm)]
    exact .quiet (.free ⟨h.busCtrl, hsel, h.req, h.noData, h.cmdBuffer⟩ hlast) id
      ⟨rfl, rfl, rfl, rfl⟩ (.inl rfl)
  | target last data seenAt =>
    cases hw with | free h hlast =>
    show Taken c _ _ (deferProcessData io c seenAt data)
    rw [deferProcessData_free io seenAt data h]
    refine .quiet (.free ⟨h.busCtrl, h.select, h.req, h.noData, h.cmdBuffer⟩ ?_) id
      ⟨rfl, rfl, rfl, rfl⟩ (.inl rfl)
    exact fun b hb => Option.some.inj hb
  | select last seenAt hr hsel =>
    cases hw with | free h hlast =>
    show Taken c _ _ (deferProcessControl c _, none)
    rw [deferProcessControl_select hr hsel h.select]
    have hbus : c.dma.busCtrl ||| sasiSelBit ||| sasiBsyBit = 0x24 := by
      rw [show c.dma.busCtrl = 0 from h.busCtrl]; decide
    refine .quiet (.selected ⟨hbus, hsel, h.req, h.noData, h.cmdBuffer⟩ ?_) id
      ⟨rfl, rfl, rfl, rfl⟩ (.inl rfl)
    exact congrArg sasiExtractTargetId (hlast _ rfl)
  | release target seenAt hr hsel =>
    cases hw with | selected h ht =>
    show Taken c _ _ (deferProcessControl c _, none)
    rw [deferProcessControl_release hr hsel h.select]
    have hbus : ((c.dma.busCtrl &&& ~~~sasiSelBit) |||
        (sasiBsyBit ||| sasiReqBit ||| sasiCtlBit)) &&& ~~~sasiInpBit = 0x0E := by
      rw [show c.dma.busCtrl = 0x24 from h.busCtrl]; decide
    exact .quiet (.command ⟨hbus, hsel, rfl, h.noData, h.cmdBuffer⟩ ht (by decide))
      id ⟨rfl, rfl, rfl, rfl⟩ (.inl rfl)
  | byte target data seenAt hlen =>
    cases hw with | command h ht _ =>
    show Taken c _ _ (deferProcessData io c seenAt data)
    have hbuf : (acknowledgeByte c data).cmdBuffer.length + 1 < cdbLength :=
      (congrArg (List.length · + 1) h.cmdBuffer).trans_lt hlen
    rw [deferProcessData_command io seenAt data h, handleSasiCommandByte_more io _ seenAt data hbuf]
    exact requestNext_taken data h ht hlen
  | lastByte target data seenAt hlen =>
    cases hw with | command h ht _ =>
    show Taken c _ _ (deferProcessData io c seenAt data)
    have hbuf : (acknowledgeByte c data).cmdBuffer = c.cmdBuffer := rfl
    have hcdb : c.cmdBuffer = _ := h.cmdBuffer
    rw [deferProcessData_command io seenAt data h,
      handleSasiCommandByte_last io _ seenAt data (by rw [hbuf, hcdb]; exact hlen), hbuf, hcdb]
    exact .routed (acknowledgeByte_works data seenAt h ht hlen) (routeToSasiTarget_routed io _ _)
  | statusRead τ value seenAt =>
    cases hw with | status h hp hv ho =>
    have hbus : c.dma.busCtrl = 0x0F := h.busCtrl
    show Taken c _ _ (deferProcessRead c .data, none)
    let dma := { c.dma with statusPending := false, nonDmaReq := true, busCtrl := 0x1F }
    have heq : deferProcessRead c .data = { c with dma := dmaUpdateInterrupts dma true } := by
      have hp' : c.dma.statusPending = true := hp
      simp only [deferProcessRead, hbus, hp']
      rfl
    rw [heq]
    exact .quiet (.message ⟨rfl, h.select, rfl, h.noData, h.cmdBuffer⟩) id
      ⟨rfl, rfl, rfl, rfl⟩ (.inl rfl)
  | messageRead value seenAt =>
    cases hw with | message h =>
    have hbus : c.dma.busCtrl = 0x1F := h.busCtrl
    show Taken c _ _ (deferProcessRead c .data, none)
    let dma := { c.dma with busCtrl := 0, nonDmaReq := false, statusPending := false }
    have heq : deferProcessRead c .data = { c with dma := dmaUpdateInterrupts dma false } := by
      simp only [deferProcessRead, hbus]
      rfl
    rw [heq]
    exact .quiet (.free ⟨rfl, h.select, rfl, h.noData, h.cmdBuffer⟩ (by simp)) id
      ⟨rfl, rfl, rfl, rfl⟩ (.inl rfl)

end PicoV9k.Sasi
