import PicoV9k.RegisterIsr

/-!
# What executing a command leaves alone

`Executed` frames everything a command does between its last CDB byte and its
status phase. A routed command either stops at a sector boundary, enters the
status phase or asks for a data-out list; a boundary moves a sector, completes or
abandons the transfer.
-/
namespace PicoV9k.Sasi
open PicoV9k.Bus PicoV9k.Storage

variable {Io σ : Type}

/-- The STATUS cell shows the bus. -/
def Card.Synced (c : Card σ) : Prop := c.cache.status = c.dma.busCtrl &&& statusMask

/-- The alias of STATUS shows the same byte. -/
def Card.Aliased (c : Card σ) : Prop := c.cache.statusAlias = c.cache.status

/-- Bus values of a command under way: BSY without SELECT, and not the status phase. -/
def busyBus (b : Byte) : Bool :=
  b &&& (0x80 ||| sasiSelBit) = 0 ∧ b &&& sasiBsyBit ≠ 0 ∧ b &&& (sasiCtlBit ||| sasiInpBit) ≠ sasiCtlBit ||| sasiInpBit

/-- The host is not shown the status phase. -/
def Card.Calm (c : Card σ) : Prop := c.cache.status &&& phaseMask ≠ sasiCtlBit ||| sasiInpBit

lemma busyBus_calm : ∀ b : Byte, busyBus b = true →
    (b &&& statusMask) &&& phaseMask ≠ sasiCtlBit ||| sasiInpBit := by
  decide

lemma sasiBusCtrlSet_synced (c : Card σ) (b : Byte) : (c.sasiBusCtrlSet b).Synced := rfl

/-- The phase helpers of the commands lead from busy bus values to busy bus values. -/
lemma busyBus_phases : ∀ b : Byte, busyBus b = true →
    busyBus (commandBusy b) = true ∧ busyBus (dataInBusy b) = true ∧
      busyBus (dataOutBusy b) = true ∧ busyBus (senseDataIn b) = true ∧
      busyBus (modeDataOut b) = true := by
  decide

lemma statusRequest_busy : ∀ b : Byte, busyBus b = true → statusRequest b = 0x0F := by
  decide

lemma dataOutRequest_busy : ∀ b : Byte, busyBus b = true → dataOutRequest b = 0x0C := by
  decide

/-- The registers with everything a command may write before its status phase masked out. -/
def outsideExecution (d : Registers) : Registers :=
  { d with busCtrl := 0, logicalBlock := 0, blockCount := 0, dmaAddress := ⟨0, 0, 0, 0⟩ }

/-- What holds between two moments of one command, before its status phase. -/
structure Executed (c c' : Card σ) : Prop where
  dma : outsideExecution c'.dma = outsideExecution c.dma
  control : c'.cache.control = c.cache.control
  cmdBuffer : c'.cmdBuffer = c.cmdBuffer
  history : { c'.history with log := c.history.log } = c.history
  top : c.dma.dmaAddress.top = 0 → c'.dma.dmaAddress.top = 0
  busy : busyBus c.dma.busCtrl = true → busyBus c'.dma.busCtrl = true
  synced : c.Synced → c'.Synced
  aliased : c.Aliased → c'.Aliased
  calm : busyBus c.dma.busCtrl = true → c.Calm → c'.Calm
  log : ∃ lbas : List ℕ, c'.history.log = c.history.log ++
    lbas.map fun lba => ⟨c.history.issuedAt, c.history.resetAt, .sector lba⟩

lemma Executed.refl (c : Card σ) : Executed c c :=
  ⟨rfl, rfl, rfl, rfl, id, id, id, id, fun _ h => h, [], by simp⟩

lemma Executed.issuedAt {c c' : Card σ} (h : Executed c c') :
    c'.history.issuedAt = c.history.issuedAt := (congrArg History.issuedAt h.history :)

lemma Executed.resetAt {c c' : Card σ} (h : Executed c c') :
    c'.history.resetAt = c.history.resetAt := (congrArg History.resetAt h.history :)

lemma Executed.statusOf {c c' : Card σ} (h : Executed c c') :
    c'.history.statusOf = c.history.statusOf := (congrArg History.statusOf h.history :)

lemma Executed.requested {c c' : Card σ} (h : Executed c c') :
    c'.dma.resetRequested = c.dma.resetRequested := (congrArg Registers.resetRequested h.dma :)

lemma Executed.trans {a b c : Card σ} (h : Executed a b) (g : Executed b c) : Executed a c := by
  obtain ⟨l, hl⟩ := h.log
  obtain ⟨m, hm⟩ := g.log
  refine ⟨g.dma.trans h.dma, g.control.trans h.control, g.cmdBuffer.trans h.cmdBuffer, ?_,
    g.top ∘ h.top, g.busy ∘ h.busy, g.synced ∘ h.synced, g.aliased ∘ h.aliased,
    fun hb hc => g.calm (h.busy hb) (h.calm hb hc),
    l ++ m, ?_⟩
  · have hg := congrArg (fun k : History => { k with log := a.history.log }) g.history
    exact hg.trans h.history
  · rw [hm, hl, h.issuedAt, h.resetAt, List.map_append, List.append_assoc]

lemma sasiBusCtrlSet_executed {c : Card σ} {b : Byte}
    (hb : busyBus c.dma.busCtrl = true → busyBus b = true) : Executed c (c.sasiBusCtrlSet b) :=
  ⟨rfl, rfl, rfl, rfl, id, hb, fun _ => sasiBusCtrlSet_synced c b, fun _ => rfl,
    fun h _ => busyBus_calm b (hb h), [], by simp [Card.sasiBusCtrlSet]⟩

lemma record_sector_executed (c : Card σ) (lba : ℕ) : Executed c (c.record (.sector lba)) :=
  ⟨rfl, rfl, rfl, rfl, id, id, id, id, fun _ h => h, [lba], rfl⟩

lemma setStorage_executed (c : Card σ) (st : Routing σ) : Executed c { c with storage := st } :=
  ⟨rfl, rfl, rfl, rfl, id, id, id, id, fun _ h => h, [], by simp⟩

lemma setRam_executed (c : Card σ) (ram : ℕ → Byte) : Executed c { c with ram := ram } :=
  ⟨rfl, rfl, rfl, rfl, id, id, id, id, fun _ h => h, [], by simp⟩

lemma setBlocks_executed (c : Card σ) (block count : ℕ) :
    Executed c { c with dma := { c.dma with logicalBlock := block, blockCount := count } } :=
  ⟨rfl, rfl, rfl, rfl, id, id, id, id, fun _ h => h, [], by simp⟩

lemma ofFull_top {full : ℕ} (h : full < ramSize) : (DmaAddress.ofFull full).top = 0 := by
  have hdiv : full / 2 ^ 24 = 0 := Nat.div_eq_of_lt (h.trans (by decide))
  show BitVec.ofNat 8 (full / 2 ^ 24) = 0
  rw [hdiv]
  rfl

lemma setAddress_executed (c : Card σ) {full : ℕ} (h : full < ramSize) :
    Executed c (c.setDmaAddress full).cachedSyncDmaAddress :=
  ⟨rfl, rfl, rfl, rfl, fun _ => ofFull_top h, id, id, id, fun _ h => h, [],
    by simp [Card.setDmaAddress, Card.cachedSyncDmaAddress]⟩

lemma commandBusy_executed (c : Card σ) : Executed c (c.sasiBusCtrlSet (commandBusy c.dma.busCtrl)) :=
  sasiBusCtrlSet_executed fun h => (busyBus_phases _ h).1

lemma dataInBusy_executed (c : Card σ) : Executed c (c.sasiBusCtrlSet (dataInBusy c.dma.busCtrl)) :=
  sasiBusCtrlSet_executed fun h => (busyBus_phases _ h).2.1

lemma dataOutBusy_executed (c : Card σ) : Executed c (c.sasiBusCtrlSet (dataOutBusy c.dma.busCtrl)) :=
  sasiBusCtrlSet_executed fun h => (busyBus_phases _ h).2.2.1

lemma senseDataIn_executed (c : Card σ) : Executed c (c.sasiBusCtrlSet (senseDataIn c.dma.busCtrl)) :=
  sasiBusCtrlSet_executed fun h => (busyBus_phases _ h).2.2.2.1

lemma modeDataOut_executed (c : Card σ) : Executed c (c.sasiBusCtrlSet (modeDataOut c.dma.busCtrl)) :=
  sasiBusCtrlSet_executed fun h => (busyBus_phases _ h).2.2.2.2

section Transfers

variable (reg : Registry Io σ)

lemma advanceSector_executed (c : Card σ) (t : Transfer) : Executed c (advanceSector c t).1 := by
  unfold advanceSector
  dsimp only
  split
  · exact commandBusy_executed c
  · exact .refl c

lemma readSectorStep_executed (io : SectorIo Io) (c : Card σ) (t : Transfer) :
    Executed c (readSectorStep reg io c t).1 := by
  refine (record_sector_executed c (t.sector + t.i)).trans ?_
  unfold readSectorStep
  dsimp only
  split
  next st _ => exact setStorage_executed _ st
  next st data _ =>
    refine (setStorage_executed _ st).trans ((dataInBusy_executed _).trans ?_)
    split
    · exact setRam_executed _ _
    · exact (setRam_executed _ _).trans (advanceSector_executed _ _)

lemma writeSectorStep_executed (io : SectorIo Io) (c : Card σ) (t : Transfer) :
    Executed c (writeSectorStep reg io c t).1 := by
  refine (record_sector_executed c (t.sector + t.i)).trans ((dataOutBusy_executed _).trans ?_)
  unfold writeSectorStep
  dsimp only
  split
  · exact .refl _
  · split
    · split
      · exact setStorage_executed _ _
      · exact (setStorage_executed _ _).trans (advanceSector_executed _ _)
    · exact .refl _

lemma sectorStep_executed (io : SectorIo Io) (c : Card σ) (t : Transfer) :
    Executed c (sectorStep reg io c t).1 := by
  unfold sectorStep
  split
  · exact readSectorStep_executed reg io c t
  · exact writeSectorStep_executed reg io c t

lemma beginTransfer_executed (dir : Dir) (c : Card σ) (cmd : List Byte) :
    Executed c (beginTransfer dir c cmd).1 :=
  (setBlocks_executed c (cdbLba cmd) (cdbBlocks cmd)).trans
    ((commandBusy_executed _).trans (commandBusy_executed _))

lemma sectorStep_address (io : SectorIo Io) (c : Card σ) {t : Transfer}
    (h : t.localDmaAddr < ramSize) : (sectorStep reg io c t).2.localDmaAddr < ramSize := by
  rcases sectorStep_transfer reg io c t with ht | ⟨w, ht⟩
  · rw [ht]; exact h
  · rw [ht]; exact Nat.mod_lt _ (by decide)

lemma writeBack_executed (c : Card σ) {t : Transfer} (h : t.localDmaAddr < ramSize) :
    Executed c (writeBack c t) :=
  (setBlocks_executed c (t.sector + t.blocks) 0).trans (setAddress_executed _ h)

lemma syncTransfer_executed (io : Io) (c : Card σ) (t : Transfer) :
    Executed c (syncTransfer reg io c t).1 ∧
      (syncTransfer reg io c t).2.localDmaAddr = t.localDmaAddr := by
  unfold syncTransfer
  split
  · split
    · exact ⟨setStorage_executed _ _, rfl⟩
    · exact ⟨setStorage_executed _ _, rfl⟩
  · exact ⟨.refl c, rfl⟩

/-- A transfer completes by entering the status phase from a card that is still executing. -/
lemma finishTransfer_executed (io : SectorIo Io) (c : Card σ) {t : Transfer}
    (h : t.localDmaAddr < ramSize) :
    ∃ d b, Executed c d ∧ finishTransfer reg io c t = sasiEnterStatusPhase d b := by
  unfold finishTransfer
  split
  · exact ⟨_, _, writeBack_executed c h, completeTransfer_eq c t⟩
  · obtain ⟨hsync, haddr⟩ := syncTransfer_executed reg io.storage c t
    exact ⟨_, _, hsync.trans (writeBack_executed _ (haddr.trans_lt h)), completeTransfer_eq _ _⟩

/-- Everything a sector boundary can do. -/
inductive Boundary (c : Card σ) : Card σ × Option Transfer → Prop
  | abandoned (hreset : c.dma.resetRequested = true) : Boundary c (c, none)
  | moved {d : Card σ} {t : Transfer} (hreset : c.dma.resetRequested = false) (h : Executed c d)
      (haddr : t.localDmaAddr < ramSize) : Boundary c (d, some t)
  | completed {d : Card σ} (b : Byte) (hreset : c.dma.resetRequested = false) (h : Executed c d) :
      Boundary c (sasiEnterStatusPhase d b, none)

theorem transferStep_boundary (io : SectorIo Io) (c : Card σ) {t : Transfer}
    (h : t.localDmaAddr < ramSize) : Boundary c (transferStep reg io c t) := by
  unfold transferStep
  split
  next hreset => exact .abandoned hreset
  next hreset =>
    have hclear : c.dma.resetRequested = false := by simpa using hreset
    split
    · exact .moved hclear (sectorStep_executed reg io c t) (sectorStep_address reg io c h)
    · obtain ⟨d, b, hd, heq⟩ := finishTransfer_executed reg io c h
      rw [heq]
      exact .completed b hclear hd

end Transfers

def Opcode.Moves (op : Opcode) : Prop := op = .readSix ∨ op = .writeSix

instance (op : Opcode) : Decidable op.Moves := inferInstanceAs (Decidable (_ ∨ _))

/-- The command enters its status phase at once; SET DRIVE PARAMS needs DMA for that. -/
def Opcode.Finishes (op : Opcode) (dmaEnabled : Bool) : Prop :=
  ¬ op.Moves ∧ (op = .driveParams → dmaEnabled = true)

instance (op : Opcode) (dmaEnabled : Bool) : Decidable (op.Finishes dmaEnabled) :=
  inferInstanceAs (Decidable (_ ∧ _))

def Card.recordRouted (c : Card σ) (cmd : List Byte) : Card σ :=
  c.record (.routed c.dma.selectedTarget c.dma.dmaAddress.full cmd)

/-- SET DRIVE PARAMS without DMA: eight bytes are expected. -/
def expectParameters (c : Card σ) : Card σ :=
  requestDataOutByte { c with dma := { c.dma with buffer := [], dataOutExpected := driveParamsLength } }

/-- Everything a routed command can do in its first step. -/
inductive Routed (c : Card σ) (cmd : List Byte) : Card σ × Option Transfer → Prop
  | moving {d : Card σ} {t : Transfer} (hop : (Opcode.ofByte (cdbByte cmd 0)).Moves)
      (h : Executed (c.recordRouted cmd) d) (hlog : d.history = (c.recordRouted cmd).history)
      (haddr : t.localDmaAddr < ramSize) : Routed c cmd (d, some t)
  | completed {d : Card σ} (b : Byte)
      (hop : (Opcode.ofByte (cdbByte cmd 0)).Finishes c.dma.dmaEnabled)
      (h : Executed (c.recordRouted cmd) d) : Routed c cmd (sasiEnterStatusPhase d b, none)
  | expecting (hop : Opcode.ofByte (cdbByte cmd 0) = .driveParams) :
      Routed c cmd (expectParameters (c.recordRouted cmd), none)

/-- A command without sectors ends in the status phase. -/
def Completes (c c' : Card σ) : Prop := ∃ d b, Executed c d ∧ c' = sasiEnterStatusPhase d b

lemma Completes.of_executed {a b c : Card σ} (h : Executed a b) (g : Completes b c) :
    Completes a c := by
  obtain ⟨d, s, hd, heq⟩ := g
  exact ⟨d, s, h.trans hd, heq⟩

lemma handleRequestSense_completes (io : SectorIo Io) (c : Card σ) (cmd : List Byte) :
    Completes c (handleRequestSense io c cmd) := by
  refine Completes.of_executed (senseDataIn_executed c) ?_
  unfold handleRequestSense
  dsimp only
  split
  · exact ⟨_, _, setRam_executed _ _, rfl⟩
  · exact ⟨_, _, (setRam_executed _ _).trans (setAddress_executed _ (Nat.mod_lt _ (by decide))), rfl⟩

lemma fetchParameters_completes (io : SectorIo Io) (c : Card σ) (len : ℕ) :
    Completes c (fetchParameters io c len) := by
  unfold fetchParameters
  dsimp only
  split
  · exact ⟨c, _, .refl c, rfl⟩
  · exact ⟨_, _, setAddress_executed c (Nat.mod_lt _ (by decide)), rfl⟩

lemma handleModeSelect_completes (io : SectorIo Io) (c : Card σ) (cmd : List Byte) :
    Completes c (handleModeSelect io c cmd) := by
  unfold handleModeSelect
  dsimp only
  split
  · exact ⟨c, _, .refl c, rfl⟩
  · exact Completes.of_executed (modeDataOut_executed c) (fetchParameters_completes io _ _)

lemma handleDriveParams_cases (io : SectorIo Io) (c : Card σ) :
    (c.dma.dmaEnabled = true ∧ Completes c (handleDriveParams io c)) ∨
      handleDriveParams io c = expectParameters c := by
  unfold handleDriveParams
  split
  next hon =>
    exact .inl (.intro hon <| Completes.of_executed (dataOutBusy_executed c) (fetchParameters_completes io _ _))
  · exact .inr rfl

lemma Routed.of_completes {c c' : Card σ} {cmd : List Byte}
    (hop : (Opcode.ofByte (cdbByte cmd 0)).Finishes c.dma.dmaEnabled)
    (h : Completes (c.recordRouted cmd) c') :
    Routed c cmd (c', none) := by
  obtain ⟨d, b, hd, rfl⟩ := h
  exact .completed b hop hd

theorem routeToSasiTarget_routed (io : SectorIo Io) (c : Card σ) (cmd : List Byte) :
    Routed c cmd (routeToSasiTarget io c cmd) := by
  have hkeep : Completes (c.recordRouted cmd) (signalCommandComplete (c.recordRouted cmd)) :=
    ⟨_, _, .refl _, rfl⟩
  have hplain {op : Opcode} (h : ¬ op.Moves) (hd : op ≠ .driveParams) :
      op.Finishes c.dma.dmaEnabled := ⟨h, fun hop => absurd hop hd⟩
  unfold routeToSasiTarget
  dsimp only
  cases hop : Opcode.ofByte (cdbByte cmd 0) with
  | testUnitReady => exact .of_completes (hop ▸ hplain (by decide) (by decide)) hkeep
  | diagnostic => exact .of_completes (hop ▸ hplain (by decide) (by decide)) hkeep
  | unknown => exact .of_completes (hop ▸ hplain (by decide) (by decide)) hkeep
  | readSix =>
    exact .moving (by rw [hop]; decide) (beginTransfer_executed .read _ cmd) rfl
      (Nat.mod_lt _ (by decide))
  | writeSix =>
    exact .moving (by rw [hop]; decide) (beginTransfer_executed .write _ cmd) rfl
      (Nat.mod_lt _ (by decide))
  | requestSense =>
    exact .of_completes (hop ▸ hplain (by decide) (by decide)) (handleRequestSense_completes io _ cmd)
  | modeSelect =>
    exact .of_completes (hop ▸ hplain (by decide) (by decide)) (handleModeSelect_completes io _ cmd)
  | driveParams =>
    rcases handleDriveParams_cases io (c.recordRouted cmd) with ⟨hon, h⟩ | h
    · exact .of_completes (hop ▸ ⟨by decide, fun _ => hon⟩) h
    · exact h ▸ .expecting hop

end PicoV9k.Sasi
