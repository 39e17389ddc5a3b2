import PicoV9k.AddressCoherence

/-!
# What a command adds to the address

A command that ends in GOOD has moved the address by the length of what it
transferred; one that fails before its sectors leaves it. Between the last byte of a
CDB and the status of a sector transfer the handler may run at any sector boundary.
-/
namespace PicoV9k.Sasi
open PicoV9k.Bus PicoV9k.Storage PicoV9k.Mgmt PicoV9k.Runs

variable {Io σ : Type} {n : ℕ}

/-- By how much a driver expects a command that ends in GOOD to move the address. -/
def expectedDmaDelta (cdb : List Byte) (dmaEnabled : Bool) : ℕ :=
  let op := cdbByte cdb 0
  let count := (cdbByte cdb 4).toNat
  if op = 0x08 ∨ op = 0x0A then 512 * if count = 0 then 256 else count
  else if op = 0x03 then if count = 0 then 4 else min count 4
  else if op = 0x0C then if dmaEnabled then 8 else 0
  else if op = 0x15 then count
  else 0

/-- The status byte that was sent last, if nothing was recorded after it. -/
def Card.answered (c : Card σ) : Option Byte :=
  match c.history.log.getLast? with
  | some ⟨_, _, .status value⟩ => some value
  | _ => none

lemma enterStatus_answered (c : Card σ) (b : Byte) : (sasiEnterStatusPhase c b).answered = some b := by
  simp [Card.answered, sasiEnterStatusPhase, Card.record, Card.cachedSetData, Card.sasiBusCtrlSet]

lemma recordRouted_answered (c : Card σ) (cmd : List Byte) : (c.recordRouted cmd).answered = none := by
  simp [Card.answered, Card.recordRouted, Card.record]

lemma TransferFrame.answered {c c' : Card σ} (h : TransferFrame c c') (hc : c.answered = none) :
    c'.answered = none := by
  obtain ⟨l, hl, hsector⟩ := h.log
  unfold Card.answered
  rw [hl]
  rcases List.eq_nil_or_concat l with rfl | ⟨l', last, rfl⟩
  · rw [List.append_nil]
    exact hc
  · obtain ⟨lba, hlba⟩ := hsector last (by simp)
    obtain ⟨issuedAt, resetAt, effect⟩ := last
    cases hlba
    simp

/-- The command is over: in GOOD after `len` bytes, else with the address where it was. -/
structure Advanced (c c' : Card σ) (len : ℕ) : Prop where
  coherent : c'.addressing.Coherent
  good : c'.answered = some sasiStatusGood →
    c'.dma.dmaAddress.full = (c.dma.dmaAddress.full + len) % ramSize
  other : c'.answered ≠ some sasiStatusGood → c'.dma.dmaAddress = c.dma.dmaAddress

lemma signalCommandComplete_advanced {c : Card σ} (h : c.addressing.Coherent) :
    Advanced c (signalCommandComplete c) 0 where
  coherent := h
  good _ := (Nat.mod_eq_of_lt h.bound).symm
  other _ := rfl

lemma signalDmaFailureStatus_advanced {c : Card σ} (h : c.addressing.Coherent) (len : ℕ) :
    Advanced c (signalDmaFailureStatus c) len where
  coherent := h
  good hgood := by
    have hcheck : (signalDmaFailureStatus c).answered = some sasiStatusCheckCondition :=
      enterStatus_answered c _
    rw [hcheck] at hgood
    exact absurd (Option.some.inj hgood) (by decide)
  other _ := rfl

/-- A list that was moved whole, from the address the register holds. -/
lemma advanceAddress_advanced {c : Card σ} (h : c.addressing.Coherent) (len : ℕ) :
    Advanced c (signalCommandComplete (c.advanceAddress (c.dma.dmaAddress.full % ramSize) len)) len := by
  have hbound : c.dma.dmaAddress.full < ramSize := h.bound
  have hlt : (c.dma.dmaAddress.full + len) % ramSize < ramSize := Nat.mod_lt _ (by decide)
  rw [Nat.mod_eq_of_lt hbound]
  exact ⟨ofFull_coherent hlt, fun _ => ofFull_full hlt, fun hother => absurd (enterStatus_answered _ _) hother⟩

/-- Whatever else a command did before leaves the address alone. -/
lemma Advanced.of_addressing {c d c' : Card σ} {len : ℕ} (h : Advanced d c' len)
    (hd : d.addressing = c.addressing) : Advanced c c' len := by
  have hregister : d.dma.dmaAddress = c.dma.dmaAddress := (congrArg Addressing.register hd :)
  exact ⟨h.coherent, hregister ▸ h.good, hregister ▸ h.other⟩

lemma handleRequestSense_advanced (io : SectorIo Io) {c : Card σ} (h : c.addressing.Coherent)
    (cmd : List Byte) : Advanced c (handleRequestSense io c cmd) (senseSize cmd) := by
  let sent (ram : ℕ → Byte) : Card σ := { c.sasiBusCtrlSet (senseDataIn c.dma.busCtrl) with ram := ram }
  unfold handleRequestSense
  dsimp only
  split
  next ram _ => exact .of_addressing (signalDmaFailureStatus_advanced (c := sent ram) h _) rfl
  next ram _ => exact .of_addressing (advanceAddress_advanced (c := sent ram) h _) rfl

lemma fetchParameters_advanced (io : SectorIo Io) {c : Card σ} (h : c.addressing.Coherent) (len : ℕ) :
    Advanced c (fetchParameters io c len) len := by
  unfold fetchParameters
  dsimp only
  split
  · exact signalDmaFailureStatus_advanced h len
  · exact advanceAddress_advanced h len

lemma handleModeSelect_advanced (io : SectorIo Io) {c : Card σ} (h : c.addressing.Coherent)
    (cmd : List Byte) : Advanced c (handleModeSelect io c cmd) (cdbByte cmd 4).toNat := by
  unfold handleModeSelect
  dsimp only
  split
  next hlen =>
    rw [hlen]
    exact signalCommandComplete_advanced h
  next hlen =>
    exact .of_addressing
      (fetchParameters_advanced io (c := c.sasiBusCtrlSet (modeDataOut c.dma.busCtrl)) h _) rfl

lemma handleDriveParams_advanced (io : SectorIo Io) {c : Card σ} (h : c.addressing.Coherent)
    (hlog : c.answered = none) :
    Advanced c (handleDriveParams io c) (if c.dma.dmaEnabled then driveParamsLength else 0) := by
  unfold handleDriveParams
  split
  next hon =>
    exact .of_addressing
      (fetchParameters_advanced io (c := c.sasiBusCtrlSet (dataOutBusy c.dma.busCtrl)) h _) rfl
  next hoff =>
    -- a list is asked for, and the status waits for its last byte
    refine ⟨h, fun hgood => ?_, fun _ => rfl⟩
    have hgood' : c.answered = some sasiStatusGood := hgood
    rw [hlog] at hgood'
    cases hgood'

/-- What a command in GOOD transfers. -/
def Opcode.length (op : Opcode) (cdb : List Byte) (dmaEnabled : Bool) : ℕ :=
  match op with
  | .readSix | .writeSix => 512 * cdbBlocks cdb
  | .requestSense => senseSize cdb
  | .driveParams => if dmaEnabled then driveParamsLength else 0
  | .modeSelect => (cdbByte cdb 4).toNat
  | .testUnitReady | .diagnostic | .unknown => 0

lemma count_eq_zero (b : Byte) : b.toNat = 0 ↔ b = 0 :=
  ⟨fun h => BitVec.eq_of_toNat_eq h, fun h => h ▸ rfl⟩

/-- The expected delta is the length of the transfer. -/
theorem expectedDmaDelta_length (cdb : List Byte) (dmaEnabled : Bool) :
    expectedDmaDelta cdb dmaEnabled = (Opcode.ofByte (cdbByte cdb 0)).length cdb dmaEnabled := by
  have hblocks : (if (cdbByte cdb 4).toNat = 0 then 256 else (cdbByte cdb 4).toNat) = cdbBlocks cdb := by
    simp only [cdbBlocks, count_eq_zero]
  have hsense : (if (cdbByte cdb 4).toNat = 0 then 4 else min (cdbByte cdb 4).toNat 4) = senseSize cdb := by
    simp only [senseSize, count_eq_zero]
  unfold expectedDmaDelta
  dsimp only
  rw [hblocks, hsense]
  generalize cdbByte cdb 0 = op
  by_cases hread : op = 0x08
  · rw [hread]; rfl
  by_cases hwrite : op = 0x0A
  · rw [hwrite]; rfl
  by_cases hrequest : op = 0x03
  · rw [hrequest]; rfl
  by_cases hdrive : op = 0x0C
  · rw [hdrive]; rfl
  by_cases hmode : op = 0x15
  · rw [hmode]; rfl
  simp only [Opcode.ofByte, hread, hwrite, hrequest, hdrive, hmode, or_self, if_false]
  split_ifs <;> rfl

/-- The sectors counted so far are what the address has moved by. -/
structure Transfer.Counts (t : Transfer) (start blocks : ℕ) : Prop where
  count : t.blocks = blocks
  le : t.i ≤ blocks
  inside : t.localDmaAddr < ramSize
  address : t.transferOk = true → t.localDmaAddr = (start + 512 * t.i) % ramSize

/-- A routed command is over, or moves its first sector next. -/
inductive RouteAdvanced (c : Card σ) (cdb : List Byte) : Card σ × Option Transfer → Prop
  | ended {d : Card σ} (h : Advanced c d (expectedDmaDelta cdb c.dma.dmaEnabled)) :
      RouteAdvanced c cdb (d, none)
  | moving {d : Card σ} {t : Transfer} (hop : (Opcode.ofByte (cdbByte cdb 0)).Moves)
      (haddr : d.addressing = c.addressing) (hlog : d.answered = none)
      (ht : t.Counts c.dma.dmaAddress.full (cdbBlocks cdb))
      (hlen : expectedDmaDelta cdb c.dma.dmaEnabled = 512 * cdbBlocks cdb) :
      RouteAdvanced c cdb (d, some t)

lemma beginTransfer_counts (dir : Dir) (c : Card σ) (cdb : List Byte) :
    (beginTransfer dir c cdb).2.Counts c.dma.dmaAddress.full (cdbBlocks cdb) :=
  ⟨rfl, Nat.zero_le _, Nat.mod_lt _ (by decide), fun _ => rfl⟩

theorem routeToSasiTarget_advanced (io : SectorIo Io) {c : Card σ} (h : c.addressing.Coherent)
    (cdb : List Byte) : RouteAdvanced c cdb (routeToSasiTarget io c cdb) := by
  have hlen := expectedDmaDelta_length cdb c.dma.dmaEnabled
  have hrouted : (c.recordRouted cdb).answered = none := recordRouted_answered c cdb
  have hcoherent : (c.recordRouted cdb).addressing.Coherent := h
  have hended {d : Card σ} {len : ℕ} (hd : Advanced (c.recordRouted cdb) d len)
      (heq : expectedDmaDelta cdb c.dma.dmaEnabled = len) : RouteAdvanced c cdb (d, none) :=
    .ended (heq ▸ hd.of_addressing rfl)
  have hmoving (dir : Dir) (hop : (Opcode.ofByte (cdbByte cdb 0)).Moves)
      (heq : expectedDmaDelta cdb c.dma.dmaEnabled = 512 * cdbBlocks cdb) :
      RouteAdvanced c cdb ((beginTransfer dir (c.recordRouted cdb) cdb).1,
        some (beginTransfer dir (c.recordRouted cdb) cdb).2) :=
    .moving hop (beginTransfer_frame dir _ cdb).addressing hrouted (beginTransfer_counts dir _ cdb) heq
  unfold routeToSasiTarget
  dsimp only
  cases hop : Opcode.ofByte (cdbByte cdb 0) with
  | testUnitReady =>
    rw [hop] at hlen
    exact hended (signalCommandComplete_advanced hcoherent) hlen
  | diagnostic =>
    rw [hop] at hlen
    exact hended (signalCommandComplete_advanced hcoherent) hlen
  | unknown =>
    rw [hop] at hlen
    exact hended (signalCommandComplete_advanced hcoherent) hlen
  | readSix =>
    rw [hop] at hlen
    exact hmoving .read (.inl hop) hlen
  | writeSix =>
    rw [hop] at hlen
    exact hmoving .write (.inr hop) hlen
  | requestSense =>
    rw [hop] at hlen
    exact hended (handleRequestSense_advanced io hcoherent cdb) hlen
  | modeSelect =>
    rw [hop] at hlen
    exact hended (handleModeSelect_advanced io hcoherent cdb) hlen
  | driveParams =>
    rw [hop] at hlen
    exact hended (handleDriveParams_advanced io hcoherent hrouted) hlen

lemma phaseMask_kept : ∀ b : Byte, (b &&& ~~~sasiSelBit) &&& phaseMask = b &&& phaseMask ∧
    acknowledged b &&& phaseMask = b &&& phaseMask := by
  decide

lemma acceptDataByte_phase (c : Card σ) (data : Byte) :
    (acceptDataByte c data).dma.busCtrl &&& phaseMask = c.dma.busCtrl &&& phaseMask := by
  unfold acceptDataByte
  dsimp only
  split
  · split
    · exact (phaseMask_kept _).2.trans (phaseMask_kept _).1
    · exact (phaseMask_kept _).1
  · split
    · exact (phaseMask_kept _).2
    · rfl

lemma acceptDataByte_addressing (c : Card σ) (data : Byte) :
    (acceptDataByte c data).addressing = c.addressing := by
  unfold acceptDataByte
  dsimp only
  split
  · split <;> rfl
  · split <;> rfl

lemma handleSasiDataOutByte_addressing (c : Card σ) (data : Byte) :
    (handleSasiDataOutByte c data).addressing = c.addressing := by
  unfold handleSasiDataOutByte
  dsimp only
  split
  · rfl
  · split <;> rfl

lemma deferProcessControl_addressing (c : Card σ) (data : Byte) :
    (deferProcessControl c data).addressing = c.addressing := by
  unfold deferProcessControl
  dsimp only
  split
  · rfl
  · split
    · rfl
    · split <;> rfl

lemma deferProcessRead_addressing (c : Card σ) (target : Reg) :
    (deferProcessRead c target).addressing = c.addressing := by
  unfold deferProcessRead
  split
  · rfl
  · rfl
  · dsimp only
    split
    · rfl
    · split
      · split <;> rfl
      · split <;> rfl
  · rfl

lemma deferProcessData_addressing (io : SectorIo Io) {c : Card σ} (seenAt : ℕ) {data : Byte}
    (hw : c.wholeCdb ⟨.write .data data, seenAt⟩ = none) :
    (deferProcessData io c seenAt data).1.addressing = c.addressing ∧
      (deferProcessData io c seenAt data).2 = none := by
  have hkept := acceptDataByte_addressing c data
  unfold deferProcessData
  dsimp only
  split
  next hphase =>
    have hcdb : (acceptDataByte c data).cmdBuffer = c.cmdBuffer := (acceptDataByte_kept c data).2.2.1
    have hshort : ¬ commandComplete ((acceptDataByte c data).cmdBuffer ++ [data]) = true := by
      intro hcomplete
      rw [acceptDataByte_phase] at hphase
      rw [hcdb] at hcomplete
      unfold Card.wholeCdb at hw
      simp only [hphase, hcomplete, and_self, if_true] at hw
      cases hw
    unfold handleSasiCommandByte
    dsimp only
    rw [if_neg hshort]
    exact ⟨hkept, rfl⟩
  · split
    · exact ⟨(handleSasiDataOutByte_addressing _ data).trans hkept, rfl⟩
    · exact ⟨hkept, rfl⟩

/-- Entries other than the last byte of a CDB leave the address alone, the bytes of a
parameter list among them. -/
theorem deferProcessEntry_addressing (io : SectorIo Io) {c : Card σ} {e : Entry}
    (hw : c.wholeCdb e = none) (ha : isAddressWrite e.event = false) :
    (deferProcessEntry io c e).1.addressing = c.addressing ∧ (deferProcessEntry io c e).2 = none := by
  obtain ⟨event, seenAt⟩ := e
  cases event with
  | readCommit target => exact ⟨deferProcessRead_addressing c target, rfl⟩
  | write target data =>
    cases target with
    | control => exact ⟨deferProcessControl_addressing c data, rfl⟩
    | data => exact deferProcessData_addressing io seenAt hw
    | addrL | addrM | addrH => cases ha
    | _ => exact ⟨rfl, rfl⟩
  | _ => exact ⟨rfl, rfl⟩

lemma RouteAdvanced.of_addressing {c d : Card σ} {cdb : List Byte} {r : Card σ × Option Transfer}
    (h : RouteAdvanced d cdb r) (hd : d.addressing = c.addressing)
    (hmode : d.dma.dmaEnabled = c.dma.dmaEnabled) : RouteAdvanced c cdb r := by
  have hregister : d.dma.dmaAddress = c.dma.dmaAddress := (congrArg Addressing.register hd :)
  cases h with
  | ended h => exact .ended (hmode ▸ h.of_addressing hd)
  | moving hop haddr hlog ht hlen => exact .moving hop (haddr.trans hd) hlog (hregister ▸ ht) (hmode ▸ hlen)

lemma RouteAdvanced.afterRoute {c : Card σ} {cdb : List Byte} {r : Card σ × Option Transfer}
    (h : RouteAdvanced c cdb r) : RouteAdvanced c cdb (afterRoute r) := by
  cases h with
  | ended h => exact .ended ⟨h.coherent, h.good, h.other⟩
  | moving hop haddr hlog ht hlen => exact .moving hop haddr hlog ht hlen

/-- The last byte of a CDB routes the command. -/
theorem deferProcessEntry_advanced (io : SectorIo Io) {c : Card σ} (h : c.addressing.Coherent)
    {e : Entry} {cdb : List Byte} (hw : c.wholeCdb e = some cdb) :
    RouteAdvanced c cdb (deferProcessEntry io c e) := by
  obtain ⟨event, seenAt⟩ := e
  unfold Card.wholeCdb at hw
  dsimp only at hw
  split at hw
  next data =>
    split at hw
    next hwhole =>
      obtain ⟨hphase, hcomplete⟩ := hwhole
      cases hw
      have hcdb : (acceptDataByte c data).cmdBuffer = c.cmdBuffer := (acceptDataByte_kept c data).2.2.1
      have haddr := acceptDataByte_addressing c data
      have heq : deferProcessData io c seenAt data = afterRoute (routeToSasiTarget io
          (completedCdb (acceptDataByte c data) seenAt data) (c.cmdBuffer ++ [data])) := by
        unfold deferProcessData handleSasiCommandByte
        dsimp only
        rw [acceptDataByte_phase, if_pos hphase, hcdb, if_pos hcomplete]
        unfold completedCdb
        rw [hcdb]
        rfl
      show RouteAdvanced c _ (deferProcessData io c seenAt data)
      rw [heq]
      have hroute := routeToSasiTarget_advanced io
        (c := completedCdb (acceptDataByte c data) seenAt data) (by
          show (acceptDataByte c data).addressing.Coherent
          rw [haddr]
          exact h) (c.cmdBuffer ++ [data])
      exact (hroute.of_addressing haddr (acceptDataByte_dmaEnabled c data)).afterRoute
    · cases hw
  · cases hw

section Boundaries

variable (reg : Registry Io σ)

lemma sectorStep_counts (io : SectorIo Io) (c : Card σ) {t : Transfer} {start blocks : ℕ}
    (h : t.Counts start blocks) (hlt : t.i < t.blocks) :
    (sectorStep reg io c t).2.Counts start blocks := by
  rcases sectorStep_transfer reg io c t with ht | ⟨w, ht⟩
  · rw [ht]
    exact ⟨h.count, h.le, h.inside, fun hok => by cases hok⟩
  · rw [ht]
    refine ⟨h.count, h.count ▸ hlt, Nat.mod_lt _ (by decide), fun hok => ?_⟩
    have haddr := h.address hok
    show (t.localDmaAddr + 512) % ramSize = (start + 512 * (t.i + 1)) % ramSize
    rw [haddr]
    unfold ramSize
    omega

lemma syncTransfer_ok (io : Io) (c : Card σ) (t : Transfer) :
    (syncTransfer reg io c t).2.transferOk = true → t.transferOk = true := by
  unfold syncTransfer
  split
  · split
    · exact id
    · exact fun hok => by cases hok
  · exact id

/-- A transfer ends by writing its own address back and sending a status, GOOD only if every
sector was. -/
lemma finishTransfer_writeBack (io : SectorIo Io) (c : Card σ) (t : Transfer) :
    ∃ d t', finishTransfer reg io c t = sasiEnterStatusPhase (writeBack d t') t'.statusByte ∧
      t'.localDmaAddr = t.localDmaAddr ∧ (t'.transferOk = true → t.transferOk = true) := by
  unfold finishTransfer
  split
  · exact ⟨c, t, completeTransfer_eq c t, rfl, id⟩
  · exact ⟨_, _, completeTransfer_eq _ _, (syncTransfer_executed reg io.storage c t).2,
      syncTransfer_ok reg io.storage c t⟩

lemma finishTransfer_addressing (io : SectorIo Io) (c : Card σ) (t : Transfer) :
    (finishTransfer reg io c t).addressing = .ofFull t.localDmaAddr := by
  obtain ⟨d, t', heq, haddr, _⟩ := finishTransfer_writeBack reg io c t
  rw [heq, enterStatus_addressing, ← haddr]
  exact setAddress_addressing _ _

lemma transferStep_coherent (io : SectorIo Io) {c : Card σ} (h : c.addressing.Coherent) {t : Transfer}
    (ht : t.localDmaAddr < ramSize) : (transferStep reg io c t).1.addressing.Coherent := by
  unfold transferStep
  split
  · exact h
  · split
    · show (sectorStep reg io c t).1.addressing.Coherent
      rw [(sectorStep_frame reg io c t).addressing]
      exact h
    · show (finishTransfer reg io c t).addressing.Coherent
      rw [finishTransfer_addressing]
      exact ofFull_coherent ht

/-- A boundary goes on counting, or it ends the transfer. -/
inductive BoundaryAdvanced (start blocks : ℕ) : Card σ × Option Transfer → Prop
  | moved {d : Card σ} {t : Transfer} (hlog : d.answered = none) (ht : t.Counts start blocks) :
      BoundaryAdvanced start blocks (d, some t)
  | ended {d : Card σ} (hgood : d.answered = some sasiStatusGood →
      d.dma.dmaAddress.full = (start + 512 * blocks) % ramSize) : BoundaryAdvanced start blocks (d, none)

theorem transferStep_advanced (io : SectorIo Io) {c : Card σ} {t : Transfer} {start blocks : ℕ}
    (h : t.Counts start blocks) (hlog : c.answered = none) :
    BoundaryAdvanced start blocks (transferStep reg io c t) := by
  unfold transferStep
  split
  · refine .ended fun hgood => ?_
    rw [hlog] at hgood
    cases hgood
  · split
    next hmore =>
      exact .moved ((sectorStep_frame reg io c t).answered hlog) (sectorStep_counts reg io c h hmore.2)
    next hlast =>
      refine .ended fun hgood => ?_
      obtain ⟨d, t', heq, haddr, hok⟩ := finishTransfer_writeBack reg io c t
      rw [heq, enterStatus_answered] at hgood
      have hok' : t.transferOk = true := hok (by
        by_contra hfailed
        rw [Transfer.statusByte, if_neg hfailed] at hgood
        exact absurd (Option.some.inj hgood) (by decide))
      -- a good transfer has stopped at its last sector
      have hall : t.i = blocks := by
        have hle := h.le
        have hcount := h.count
        have hnot : ¬ t.i < t.blocks := fun hlt => hlast ⟨hok', hlt⟩
        omega
      have hregister : (finishTransfer reg io c t).dma.dmaAddress = (Addressing.ofFull t.localDmaAddr).register :=
        congrArg Addressing.register (finishTransfer_addressing reg io c t)
      rw [hregister, ofFull_full h.inside, h.address hok', hall]

end Boundaries

/-- The handler records nothing. -/
lemma isr_log (b : Bridge σ n) (event : FifoEvent) :
    (b.isr event).1.card.history.log = b.card.history.log := by
  cases event with
  | prefetch target => cases target <;> rfl
  | readCommit target =>
    cases target with
    | data =>
      rw [isr_commit_data, enqueue_card]
      rfl
    | _ => rfl
  | write target data =>
    cases target with
    | control =>
      by_cases hr : hasBit data dmaResetBit = true
      · rw [isr_write_reset b hr, enqueue_card]
        rfl
      · rw [isr_write_control b (Bool.eq_false_iff.mpr hr), enqueue_card]
        rfl
    | data =>
      rw [isr_write_data, enqueue_card]
      rfl
    | status | statusAlias =>
      show (((Bridge.tick b).writeThrough _ data).enqueue _).card.history.log = _
      rw [enqueue_card]
      rfl
    | _ => rfl
  | unknown => rfl

lemma isr_answered (b : Bridge σ n) (event : FifoEvent) :
    (b.isr event).1.card.answered = b.card.answered := by
  unfold Card.answered
  rw [isr_log]

/-- In every state: the cells show the address, transfers stay inside the memory, and no
write of an address register waits for the worker. -/
structure Bridge.AddressKept (b : Bridge σ n) : Prop where
  coherent : b.card.addressing.Coherent
  inside : b.Addressed
  queued : ∀ e ∈ b.queue, isDeferred e.event = true

lemma isDeferred_address {event : FifoEvent} (h : isDeferred event = true) :
    isAddressWrite event = false := by
  cases event with
  | write target data => cases target <;> first | rfl | cases h
  | _ => rfl

lemma deferProcessEntry_coherent (io : SectorIo Io) {c : Card σ} (h : c.addressing.Coherent) {e : Entry}
    (he : isDeferred e.event = true) : (deferProcessEntry io c e).1.addressing.Coherent := by
  cases hw : c.wholeCdb e with
  | none =>
    rw [(deferProcessEntry_addressing io hw (isDeferred_address he)).1]
    exact h
  | some cdb =>
    have hroute := deferProcessEntry_advanced io h hw
    rcases hr : deferProcessEntry io c e with ⟨d, next⟩
    rw [hr] at hroute
    cases hroute with
    | ended hd => exact hd.coherent
    | moving _ haddr _ _ _ =>
      rw [haddr]
      exact h

theorem Bridge.AddressKept.step {reg : Registry Io σ} {b b' : Bridge σ n} {label : BusLabel Io σ}
    (h : b.AddressKept) (hs : b.step reg label = some b') : b'.AddressKept := by
  cases label with
  | fifo event =>
    cases hs
    refine ⟨isr_coherent h.coherent event, ?_, fun e he => ?_⟩
    · unfold Bridge.Addressed
      rw [isr_transfer]
      exact h.inside
    · rw [isr_queue] at he
      split at he
      next hroom =>
        rcases List.mem_append.mp he with he | he
        · exact h.queued e he
        · rw [List.mem_singleton.mp he]
          exact hroom.1
      · exact h.queued e he
  | worker io =>
    have hinside := (workerStep_worked reg h.inside hs).addressed
    simp only [Bridge.step, Bridge.workerStep] at hs
    split at hs
    next t ht =>
      cases hs
      have hcoherent := transferStep_coherent reg io h.coherent (h.inside t ht)
      rcases hr : transferStep reg io b.card t with ⟨d, next⟩
      rw [hr] at hinside hcoherent
      cases next with
      | none => exact ⟨hcoherent, hinside, h.queued⟩
      | some t' => exact ⟨hcoherent, hinside, h.queued⟩
    · cases hs
    next e rest ht hq =>
      cases hs
      have hqueued := h.queued
      rw [hq] at hqueued
      exact ⟨deferProcessEntry_coherent io h.coherent (hqueued e List.mem_cons_self), hinside,
        fun e' he' => hqueued e' (List.mem_cons_of_mem _ he')⟩
  | service storage =>
    simp only [Bridge.step, Bridge.service] at hs
    split at hs
    · cases hs
      exact ⟨h.coherent, h.inside, h.queued⟩
    · cases hs

lemma initial_addressKept (ram : ℕ → Byte) (storage : Routing σ) (chan : MgmtChan n) :
    (Bridge.initial ram storage chan).AddressKept :=
  ⟨⟨rfl, rfl, rfl, nibble_of_lt 0 (by decide), rfl⟩, fun t ht => (by cases ht), fun e he => (by cases he)⟩

/-- The worker takes `e` from `b` and is done with it in `b'`; the handler may run between the
sectors that the entry moves. -/
def Bridge.Serves (reg : Registry Io σ) (b : Bridge σ n) (e : Entry) (b' : Bridge σ n) : Prop :=
  b.transfer = none ∧ (∃ rest, b.queue = e :: rest) ∧ b'.transfer = none ∧
    ∃ io b₁ labels, b.step reg (.worker io) = some b₁ ∧
      Guarded (Bridge.step reg) (fun s _ => s.transfer ≠ none) b₁ labels b'

/-- While an entry moves sectors, and when it has moved the last. -/
structure Bridge.Moves (b : Bridge σ n) (start blocks : ℕ) : Prop where
  moving : ∀ t ∈ b.transfer, t.Counts start blocks ∧ b.card.answered = none
  ended : b.transfer = none → b.card.answered = some sasiStatusGood →
    b.card.dma.dmaAddress.full = (start + 512 * blocks) % ramSize

theorem Bridge.Moves.step {reg : Registry Io σ} {b b' : Bridge σ n} {label : BusLabel Io σ}
    {start blocks : ℕ} (h : b.Moves start blocks) (hg : b.transfer ≠ none)
    (hs : b.step reg label = some b') : b'.Moves start blocks := by
  obtain ⟨t, ht⟩ := Option.ne_none_iff_exists'.mp hg
  obtain ⟨hcounts, hlog⟩ := h.moving t ht
  cases label with
  | fifo event =>
    cases hs
    have htransfer := isr_transfer b event
    refine ⟨fun t' ht' => ?_, fun hnone => absurd (htransfer ▸ hnone) hg⟩
    rw [htransfer] at ht'
    rw [isr_answered]
    exact h.moving t' ht'
  | worker io =>
    simp only [Bridge.step, Bridge.workerStep, ht] at hs
    cases hs
    have hstep := transferStep_advanced reg io hcounts hlog
    rcases hr : transferStep reg io b.card t with ⟨d, next⟩
    rw [hr] at hstep
    cases hstep with
    | moved hlog' ht' => exact ⟨fun t'' heq => Option.some.inj heq ▸ ⟨ht', hlog'⟩, fun hnone => by cases hnone⟩
    | ended hgood => exact ⟨fun t'' heq => (by cases heq), fun _ => hgood⟩
  | service storage =>
    simp only [Bridge.step, Bridge.service, if_neg hg] at hs
    cases hs

/-- Once the worker is done with an entry that moved sectors, their number is the advance. -/
lemma Bridge.Moves.served {reg : Registry Io σ} {b b' : Bridge σ n} {start blocks : ℕ}
    {labels : List (BusLabel Io σ)} (h : b.Moves start blocks)
    (hrun : Guarded (Bridge.step reg) (fun s _ => s.transfer ≠ none) b labels b') :
    b'.Moves start blocks := by
  have hstep (s : Bridge σ n) (a : BusLabel Io σ) (s' : Bridge σ n) (hm : s.Moves start blocks)
      (hg : s.transfer ≠ none) (hs : s.step reg a = some s') : s'.Moves start blocks := hm.step hg hs
  exact hrun.invariant hstep h

/-- Nothing runs inside an entry that moves no sectors. -/
lemma served_idle {reg : Registry Io σ} {b b' : Bridge σ n} {labels : List (BusLabel Io σ)}
    (h : Guarded (Bridge.step reg) (fun s _ => s.transfer ≠ none) b labels b')
    (hb : b.transfer = none) : b' = b := by
  cases h with
  | nil => rfl
  | cons hg _ _ => exact absurd hb hg

lemma not_moves {op : Byte} (h : op = 0x03 ∨ op = 0x0C ∨ op = 0x15) : ¬ (Opcode.ofByte op).Moves := by
  rcases h with rfl | rfl | rfl <;> decide

/-- In every state the cells at 0x80, 0xA0 and 0xC0 show the address, which has twenty bits.
A command that ends in GOOD with the entry of its last CDB byte has moved it by the expected
delta; without GOOD, SENSE, SET DRIVE PARAMS and MODE SELECT leave it; all other entries leave
it too, those of the list that SET DRIVE PARAMS takes without DMA among them. -/
theorem dmaAddress_coherent (reg : Registry Io σ) {ram : ℕ → Byte} {storage : Routing σ}
    {chan : MgmtChan n} {labels : List (BusLabel Io σ)} {b : Bridge σ n}
    (h : Run (Bridge.step reg) (.initial ram storage chan) labels b) :
    b.card.AddressShown ∧ ∀ e b', b.Serves reg e b' →
      (∀ cdb, b.card.wholeCdb e = some cdb →
        (b'.card.answered = some sasiStatusGood → b'.card.dma.dmaAddress.full =
          (b.card.dma.dmaAddress.full + expectedDmaDelta cdb b.card.dma.dmaEnabled) % 2 ^ 20) ∧
        (b'.card.answered ≠ some sasiStatusGood →
          cdbByte cdb 0 = 0x03 ∨ cdbByte cdb 0 = 0x0C ∨ cdbByte cdb 0 = 0x15 →
          b'.card.dma.dmaAddress = b.card.dma.dmaAddress)) ∧
      (b.card.wholeCdb e = none → b'.card.dma.dmaAddress = b.card.dma.dmaAddress) := by
  have hkept := h.invariant (fun s a s' hi _ hs => hi.step hs) (initial_addressKept ram storage chan)
  refine ⟨hkept.coherent.shown, fun e b' hserves => ?_⟩
  obtain ⟨hidle, ⟨rest, hq⟩, hdone, io, b₁, labels', hfirst, hrun⟩ := hserves
  have hb₁ : b₁ = b.afterEntry rest (deferProcessEntry io b.card e) := by
    simp only [Bridge.step, Bridge.workerStep, hidle, hq] at hfirst
    exact (Option.some.inj hfirst).symm
  refine ⟨fun cdb hw => ?_, fun hw => ?_⟩
  · have hroute := deferProcessEntry_advanced io hkept.coherent hw
    rcases hr : deferProcessEntry io b.card e with ⟨d, next⟩
    rw [hr] at hroute hb₁
    cases hroute with
    | ended hd =>
      have hb' : b' = b₁ := served_idle hrun (hb₁ ▸ rfl)
      rw [hb', hb₁]
      exact ⟨hd.good, fun hother _ => hd.other hother⟩
    | @moving _ t hmove haddr hlog ht hlen =>
      have hmoves : b₁.Moves b.card.dma.dmaAddress.full (cdbBlocks cdb) := by
        rw [hb₁]
        exact ⟨fun t' ht' => Option.some.inj ht' ▸ ⟨ht, hlog⟩, fun hnone => by cases hnone⟩
      refine ⟨fun hgood => ?_, fun _ hop => ?_⟩
      · rw [hlen]
        exact (hmoves.served hrun).ended hdone hgood
      · exact absurd hmove (not_moves hop)
  · obtain ⟨haddr, hnone⟩ := deferProcessEntry_addressing io hw
      (isDeferred_address (hkept.queued e (hq ▸ List.mem_cons_self)))
    have hb' : b' = b₁ := served_idle hrun (hb₁ ▸ hnone)
    rw [hb', hb₁]
    exact (congrArg Addressing.register haddr :)

/-- Four sense bytes for a list that starts two bytes below the end of the memory. -/
def senseAtTheTop : List (BusLabel Unit Unit) :=
  let worker : BusLabel Unit Unit := .worker ⟨(), fun _ => .ok⟩
  [.fifo (.write .addrL 0xFE), .fifo (.write .addrM 0xFF), .fifo (.write .addrH 0x0F),
    .fifo (.write .data 0x01), worker, .fifo (.write .control 0x10), worker,
    .fifo (.write .control 0x00), worker, .fifo (.write .data 0x03), worker,
    .fifo (.write .data 0x00), worker, .fifo (.write .data 0x00), worker,
    .fifo (.write .data 0x00), worker, .fifo (.write .data 0x06), worker,
    .fifo (.write .data 0x00)]

/-- Core 1 before the worker takes the last CDB byte. -/
def senseQueued : Bridge Unit 2 := (followBus (fun _ _ => True) senseAtTheTop).get rfl

theorem dmaAddress_coherent_sense :
    ∃ b' e, senseQueued.Serves (fun _ => none : Registry Unit Unit) e b' ∧
      senseQueued.card.wholeCdb e = some [0x03, 0, 0, 0, 0x06, 0] ∧
      b'.card.answered = some sasiStatusGood ∧ senseQueued.card.dma.dmaAddress.full = 0xFFFFE ∧
      b'.card.dma.dmaAddress.full = (0xFFFFE + 4) % 2 ^ 20 := by
  let last : Entry := ⟨.write .data 0x00, 12⟩
  let io : SectorIo Unit := ⟨(), fun _ => .ok⟩
  have hrun : Run (Bridge.step fun _ => none) bareBridge senseAtTheTop senseQueued :=
    Guarded.of_follow rfl
  have hserves : senseQueued.Serves (fun _ => none : Registry Unit Unit) last
      (senseQueued.afterEntry [] (deferProcessEntry io senseQueued.card last)) :=
    ⟨rfl, ⟨[], rfl⟩, rfl, io, _, [], rfl, .nil _⟩
  have hwhole : senseQueued.card.wholeCdb last = some [0x03, 0, 0, 0, 0x06, 0] := rfl
  have hadvance := ((dmaAddress_coherent (fun _ => none) hrun).2 last _ hserves).1 _ hwhole
  exact ⟨_, last, hserves, hwhole, rfl, rfl, hadvance.1 rfl⟩

end PicoV9k.Sasi
