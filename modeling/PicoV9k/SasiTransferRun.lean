import PicoV9k.SasiTransfer

/-!
# Running a transfer

What one boundary leaves alone, and the two ways a whole transfer can end: it
completes after its sector loop, or it is abandoned at a boundary that sees a
RESET.
-/
namespace PicoV9k.Sasi
open PicoV9k.Bus PicoV9k.Storage

variable {Io σ : Type} (reg : Registry Io σ)

/-- The registers with everything a running transfer may write masked out. -/
def outsideTransfer (d : Registers) : Registers :=
  { d with busCtrl := 0, logicalBlock := 0, blockCount := 0, resetRequested := false }

/-- What holds between two moments of one transfer, before its status phase. -/
structure TransferFrame (c c' : Card σ) : Prop where
  dma : outsideTransfer c'.dma = outsideTransfer c.dma
  cells : c'.cache.setStatus 0 = c.cache.setStatus 0
  statusOf : c'.history.statusOf = c.history.statusOf
  log : ∃ l, c'.history.log = c.history.log ++ l ∧ ∀ e ∈ l, ∃ lba, e.effect = .sector lba

lemma TransferFrame.refl (c : Card σ) : TransferFrame c c :=
  ⟨rfl, rfl, rfl, [], by simp, by simp⟩

lemma TransferFrame.trans {a b c : Card σ} (h : TransferFrame a b) (g : TransferFrame b c) :
    TransferFrame a c := by
  obtain ⟨l, hl, hs⟩ := h.log
  obtain ⟨m, hm, ht⟩ := g.log
  refine ⟨g.dma.trans h.dma, g.cells.trans h.cells, g.statusOf.trans h.statusOf, l ++ m, ?_, ?_⟩
  · rw [hm, hl, List.append_assoc]
  · intro e he
    rcases List.mem_append.mp he with he | he
    · exact hs e he
    · exact ht e he

lemma sasiBusCtrlSet_frame (c : Card σ) (b : Byte) : TransferFrame c (c.sasiBusCtrlSet b) :=
  ⟨rfl, rfl, rfl, [], by simp [Card.sasiBusCtrlSet], by simp⟩

lemma record_sector_frame (c : Card σ) (lba : ℕ) : TransferFrame c (c.record (.sector lba)) :=
  ⟨rfl, rfl, rfl, [_], rfl, by simp⟩

lemma setStorage_frame (c : Card σ) (st : Routing σ) : TransferFrame c { c with storage := st } :=
  ⟨rfl, rfl, rfl, [], by simp, by simp⟩

lemma setRam_frame (c : Card σ) (ram : ℕ → Byte) : TransferFrame c { c with ram := ram } :=
  ⟨rfl, rfl, rfl, [], by simp, by simp⟩

lemma resetArrives_frame (c : Card σ) (seen : Bool) : TransferFrame c (c.resetArrives seen) := by
  unfold Card.resetArrives
  split
  · exact ⟨rfl, rfl, rfl, [], by simp, by simp⟩
  · exact .refl c

lemma advanceSector_frame (c : Card σ) (t : Transfer) : TransferFrame c (advanceSector c t).1 := by
  unfold advanceSector
  dsimp only
  split
  · exact sasiBusCtrlSet_frame _ _
  · exact .refl c

lemma readSectorStep_frame (io : SectorIo Io) (c : Card σ) (t : Transfer) :
    TransferFrame c (readSectorStep reg io c t).1 := by
  refine (record_sector_frame c (t.sector + t.i)).trans ?_
  unfold readSectorStep
  dsimp only
  split
  next st _ => exact setStorage_frame _ st
  next st data _ =>
    refine (setStorage_frame _ st).trans ?_
    refine (sasiBusCtrlSet_frame _ (dataInBusy c.dma.busCtrl)).trans ?_
    split
    · exact setRam_frame _ _
    · exact (setRam_frame _ _).trans (advanceSector_frame _ _)

lemma writeSectorStep_frame (io : SectorIo Io) (c : Card σ) (t : Transfer) :
    TransferFrame c (writeSectorStep reg io c t).1 := by
  refine (record_sector_frame c (t.sector + t.i)).trans ?_
  refine (sasiBusCtrlSet_frame _ (dataOutBusy c.dma.busCtrl)).trans ?_
  unfold writeSectorStep
  dsimp only
  split
  · exact .refl _
  · split
    · split
      · exact setStorage_frame _ _
      · exact (setStorage_frame _ _).trans (advanceSector_frame _ _)
    · exact .refl _

lemma sectorStep_frame (io : SectorIo Io) (c : Card σ) (t : Transfer) :
    TransferFrame c (sectorStep reg io c t).1 := by
  unfold sectorStep
  split
  · exact readSectorStep_frame reg io c t
  · exact writeSectorStep_frame reg io c t

lemma advanceSector_resetRequested (c : Card σ) (t : Transfer) :
    (advanceSector c t).1.dma.resetRequested = c.dma.resetRequested := by
  unfold advanceSector
  dsimp only
  split <;> rfl

lemma sectorStep_resetRequested (io : SectorIo Io) (c : Card σ) (t : Transfer) :
    (sectorStep reg io c t).1.dma.resetRequested = c.dma.resetRequested := by
  unfold sectorStep
  split
  · unfold readSectorStep
    dsimp only
    split
    · rfl
    · split
      · rfl
      · rw [advanceSector_resetRequested]; rfl
  · unfold writeSectorStep
    dsimp only
    split
    · rfl
    · split
      · split
        · rfl
        · rw [advanceSector_resetRequested]; rfl
      · rfl

/-- The bus is not in the status or message phase. -/
def Card.TransferPhase (c : Card σ) : Prop :=
  c.dma.busCtrl &&& (sasiCtlBit ||| sasiInpBit) ≠ sasiCtlBit ||| sasiInpBit

lemma commandBusy_phase (b : Byte) :
    commandBusy b &&& (sasiCtlBit ||| sasiInpBit) ≠ sasiCtlBit ||| sasiInpBit := by
  revert b; decide

lemma dataInBusy_phase (b : Byte) :
    dataInBusy b &&& (sasiCtlBit ||| sasiInpBit) ≠ sasiCtlBit ||| sasiInpBit := by
  revert b; decide

lemma dataOutBusy_phase (b : Byte) :
    dataOutBusy b &&& (sasiCtlBit ||| sasiInpBit) ≠ sasiCtlBit ||| sasiInpBit := by
  revert b; decide

/-- A sector step leaves the bus alone or drives it with one of three busy values. -/
lemma advanceSector_bus {P : Byte → Prop} (hcommand : ∀ b, P (commandBusy b)) {c : Card σ}
    (t : Transfer) (h : P c.dma.busCtrl) : P (advanceSector c t).1.dma.busCtrl := by
  unfold advanceSector
  dsimp only
  split
  · exact hcommand _
  · exact h

lemma sectorStep_bus {P : Byte → Prop} (hcommand : ∀ b, P (commandBusy b))
    (hin : ∀ b, P (dataInBusy b)) (hout : ∀ b, P (dataOutBusy b)) (io : SectorIo Io) {c : Card σ}
    (t : Transfer) (h : P c.dma.busCtrl) : P (sectorStep reg io c t).1.dma.busCtrl := by
  unfold sectorStep
  split
  · unfold readSectorStep
    dsimp only
    split
    · exact h
    · split
      · exact hin _
      · exact advanceSector_bus hcommand _ (hin _)
  · unfold writeSectorStep
    dsimp only
    split
    · exact hout _
    · split
      · split
        · exact hout _
        · exact advanceSector_bus hcommand _ (hout _)
      · exact hout _

lemma sectorStep_phase (io : SectorIo Io) {c : Card σ} (t : Transfer) (h : c.TransferPhase) :
    (sectorStep reg io c t).1.TransferPhase :=
  sectorStep_bus reg
    (P := fun b => b &&& (sasiCtlBit ||| sasiInpBit) ≠ sasiCtlBit ||| sasiInpBit)
    commandBusy_phase dataInBusy_phase dataOutBusy_phase io t h

lemma beginTransfer_frame (dir : Dir) (c : Card σ) (cmd : List Byte) :
    TransferFrame c (beginTransfer dir c cmd).1 :=
  ⟨rfl, rfl, rfl, [], by simp [beginTransfer, sasiApplyCommandDelay, Card.sasiBusCtrlSet], by simp⟩

lemma beginTransfer_phase (dir : Dir) (c : Card σ) (cmd : List Byte) :
    (beginTransfer dir c cmd).1.TransferPhase := commandBusy_phase _

/-- The address as the host reads it back from the three cells. -/
def CachedRegs.address (c : CachedRegs) : ℕ :=
  c.addrL.toNat + 2 ^ 8 * c.addrM.toNat + 2 ^ 16 * c.addrH.toNat

/-- The status phase, entered with `statusByte`. -/
structure StatusEntered (c : Card σ) (statusByte : Byte) : Prop where
  status : c.dma.status = statusByte
  pending : c.dma.statusPending = true
  cells : c.cache.status = 0x0F ∧ c.cache.statusAlias = 0x0F
  logged : (c.history.log.getLast?.map (·.effect)) = some (.status statusByte)

lemma sasiEnterStatusPhase_entered (c : Card σ) (statusByte : Byte) :
    StatusEntered (sasiEnterStatusPhase c statusByte) statusByte := by
  have hmask (b : Byte) : statusRequest b &&& statusMask = 0x0F := by revert b; decide
  refine ⟨rfl, rfl, ⟨hmask _, hmask _⟩, ?_⟩
  simp [sasiEnterStatusPhase, Card.record, Card.cachedSetData, Card.sasiBusCtrlSet]

/-- Low, middle and high bytes of a 20-bit address, read back from its cells. -/
lemma address_cells (c : CachedRegs) {n : ℕ} (h : n < ramSize) : CachedRegs.address
    { c with
      addrL := (DmaAddress.ofFull n).low
      addrM := (DmaAddress.ofFull n).mid
      addrH := (DmaAddress.ofFull n).high &&& 0x0F } = n := by
  have h20 : n < 2 ^ 20 := h
  have hhigh : ((BitVec.ofNat 8 (n / 2 ^ 16)) &&& 0x0F : Byte).toNat = n / 2 ^ 16 := by
    rw [BitVec.toNat_and, BitVec.toNat_ofNat, show (0x0F : Byte).toNat = 2 ^ 4 - 1 from rfl,
      Nat.and_two_pow_sub_one_eq_mod]
    omega
  simp only [CachedRegs.address, DmaAddress.ofFull, hhigh, BitVec.toNat_ofNat]
  omega

def Transfer.statusByte (t : Transfer) : Byte :=
  if t.transferOk then sasiStatusGood else sasiStatusCheckCondition

/-- The card just before its status phase. -/
def writeBack (c : Card σ) (t : Transfer) : Card σ :=
  (Card.setDmaAddress
    { c with dma := { c.dma with logicalBlock := t.sector + t.blocks, blockCount := 0 } }
    t.localDmaAddr).cachedSyncDmaAddress

lemma completeTransfer_eq (c : Card σ) (t : Transfer) :
    completeTransfer c t = sasiEnterStatusPhase (writeBack c t) t.statusByte := by
  cases hok : t.transferOk <;>
    simp [completeTransfer, writeBack, Transfer.statusByte, hok, signalCommandComplete,
      signalDmaFailureStatus, signalCommandCompleteWithStatus]

lemma completeTransfer_spec (c : Card σ) {t : Transfer} (haddr : t.localDmaAddr < ramSize) :
    (completeTransfer c t).ram = c.ram ∧ (completeTransfer c t).storage = c.storage ∧
      (completeTransfer c t).dma.dmaAddress.full = t.localDmaAddr ∧
      CachedRegs.address (completeTransfer c t).cache = t.localDmaAddr ∧
      StatusEntered (completeTransfer c t) t.statusByte := by
  rw [completeTransfer_eq]
  refine ⟨rfl, rfl, ?_, ?_, sasiEnterStatusPhase_entered _ _⟩
  · exact DmaAddress.full_ofFull (haddr.trans (by decide))
  · exact address_cells c.cache haddr

/-- A transfer that a RESET stopped: no status phase and no write-back. -/
structure TransferAbandoned (c c' : Card σ) : Prop where
  phase : c'.TransferPhase
  status : c'.dma.status = c.dma.status ∧ c'.dma.statusPending = c.dma.statusPending
  logged : ∃ l, c'.history.log = c.history.log ++ l ∧ ∀ e ∈ l, ∃ lba, e.effect = .sector lba
  address : c'.dma.dmaAddress = c.dma.dmaAddress
  addressCells : CachedRegs.address c'.cache = CachedRegs.address c.cache

lemma TransferFrame.abandoned {c c' : Card σ} (h : TransferFrame c c') (hp : c'.TransferPhase) :
    TransferAbandoned c c' where
  phase := hp
  status := ⟨(congrArg Registers.status h.dma :), (congrArg Registers.statusPending h.dma :)⟩
  logged := h.log
  address := (congrArg Registers.dmaAddress h.dma :)
  addressCells := (congrArg CachedRegs.address h.cells :)

/-- The `for` loop without RESET: up to `r` sectors while the transfer is good. -/
def sectorLoop (env : TransferEnv Io) :
    ℕ → Card σ × Transfer → Card σ × Transfer
  | 0, s => s
  | r + 1, (c, t) =>
    if t.transferOk then sectorLoop env r (sectorStep reg (env.sector t.i) c t) else (c, t)

/-- The last boundary a transfer visits, from the locals its loop ends with. -/
def Transfer.lastBoundary (t : Transfer) : ℕ := if t.transferOk then t.i else t.i + 1

/-- A sector either counts, or stops the transfer where it is. -/
lemma sectorStep_transfer (io : SectorIo Io) (c : Card σ) (t : Transfer) :
    (sectorStep reg io c t).2 = { t with transferOk := false } ∨
      ∃ w, (sectorStep reg io c t).2 =
        { t with i := t.i + 1, localDmaAddr := (t.localDmaAddr + 512) % ramSize,
                 anyStorageWrites := w } := by
  unfold sectorStep
  split
  · unfold readSectorStep
    dsimp only
    split
    · exact .inl rfl
    · split
      · exact .inl rfl
      · exact .inr ⟨t.anyStorageWrites, rfl⟩
  · unfold writeSectorStep
    dsimp only
    split
    · exact .inl rfl
    · split
      · split
        · exact .inl rfl
        · exact .inr ⟨true, rfl⟩
      · exact .inl rfl

lemma sectorLoop_stopped (env : TransferEnv Io) (r : ℕ) (c : Card σ) {t : Transfer}
    (h : t.transferOk = false) : sectorLoop reg env r (c, t) = (c, t) := by
  cases r <;> simp [sectorLoop, h]

lemma runTransfer_none (env : TransferEnv Io) (fuel k : ℕ) (c : Card σ) :
    runTransfer reg env fuel k (c, none) = (c, none) := by
  cases fuel <;> rfl

/-- Without a RESET the transfer completes after its sector loop. -/
theorem runTransfer_completes {env : TransferEnv Io} (henv : ∀ k, env.resetSeen k = false) (r : ℕ)
    {c : Card σ} {t : Transfer} (hreset : c.dma.resetRequested = false) (hok : t.transferOk = true)
    (hr : t.i + r = t.blocks) :
    runTransfer reg env (r + 1) t.i (c, some t) =
      (finishTransfer reg (env.sector (sectorLoop reg env r (c, t)).2.lastBoundary)
        (sectorLoop reg env r (c, t)).1 (sectorLoop reg env r (c, t)).2, none) := by
  induction r generalizing c t with
  | zero =>
    have hlast : ¬ t.i < t.blocks := by omega
    simp [runTransfer, transferStep, henv, Card.resetArrives, hreset, hok, hlast, sectorLoop,
      Transfer.lastBoundary]
  | succ r ih =>
    have hlt : t.i < t.blocks := by omega
    have hstep : runTransfer reg env (r + 1 + 1) t.i (c, some t) =
        runTransfer reg env (r + 1) (t.i + 1)
          ((sectorStep reg (env.sector t.i) c t).1, some (sectorStep reg (env.sector t.i) c t).2) := by
      simp [runTransfer, transferStep, henv, Card.resetArrives, hreset, hok, hlt]
    have hreset' := (sectorStep_resetRequested reg (env.sector t.i) c t).trans hreset
    have hloop : sectorLoop reg env (r + 1) (c, t) =
        sectorLoop reg env r (sectorStep reg (env.sector t.i) c t) := by simp [sectorLoop, hok]
    rw [hstep, hloop]
    rcases hs : sectorStep reg (env.sector t.i) c t with ⟨c', t'⟩
    rw [hs] at hreset'
    rcases sectorStep_transfer reg (env.sector t.i) c t with h | ⟨w, h⟩
    · rw [hs] at h
      subst h
      simp only at hreset'
      rw [sectorLoop_stopped _ _ _ _ rfl]
      simp [runTransfer, transferStep, henv, Card.resetArrives, hreset', Transfer.lastBoundary,
        runTransfer_none]
    · rw [hs] at h
      have hi : t'.i = t.i + 1 := congrArg Transfer.i h
      have hok' : t'.transferOk = true := (congrArg Transfer.transferOk h).trans hok
      have hb : t'.blocks = t.blocks := (congrArg Transfer.blocks h :)
      rw [← hi]
      exact ih hreset' hok' (by omega)

lemma resetArrives_quiet {c : Card σ} {seen : Bool}
    (h : ¬ (c.resetArrives seen).dma.resetRequested = true) :
    seen = false ∧ c.dma.resetRequested = false := by
  cases seen <;> simp_all [Card.resetArrives]

lemma resetArrives_requested {c : Card σ} (seen : Bool) (h : c.dma.resetRequested = true) :
    (c.resetArrives seen).dma.resetRequested = true := by
  cases seen
  · exact h
  · rfl

lemma abandon_at (env : TransferEnv Io) (fuel k : ℕ) {c : Card σ} {t : Transfer}
    (hreset : (c.resetArrives (env.resetSeen k)).dma.resetRequested = true) (hphase : c.TransferPhase) :
    (runTransfer reg env (fuel + 1) k (c, some t)).2 = none ∧
      TransferFrame c (runTransfer reg env (fuel + 1) k (c, some t)).1 ∧
      (runTransfer reg env (fuel + 1) k (c, some t)).1.TransferPhase := by
  have hrun : runTransfer reg env (fuel + 1) k (c, some t) =
      (c.resetArrives (env.resetSeen k), none) := by
    simp [runTransfer, transferStep, hreset, runTransfer_none]
  rw [hrun]
  refine ⟨rfl, resetArrives_frame c _, ?_⟩
  unfold Card.resetArrives
  split
  · exact hphase
  · exact hphase

/-- A RESET seen at a boundary that the transfer reaches abandons it there. -/
theorem runTransfer_abandoned {env : TransferEnv Io} (r : ℕ) {c : Card σ} {t : Transfer} {j : ℕ}
    (hok : t.transferOk = true) (hr : t.i + r = t.blocks) (hphase : c.TransferPhase)
    (hlow : t.i ≤ j) (hhigh : j ≤ (sectorLoop reg env r (c, t)).2.lastBoundary)
    (hseen : env.resetSeen j = true) :
    (runTransfer reg env (r + 1) t.i (c, some t)).2 = none ∧
      TransferFrame c (runTransfer reg env (r + 1) t.i (c, some t)).1 ∧
      (runTransfer reg env (r + 1) t.i (c, some t)).1.TransferPhase := by
  induction r generalizing c t with
  | zero =>
    have hj : j = t.i := by
      simp only [sectorLoop, Transfer.lastBoundary, hok, ↓reduceIte] at hhigh
      omega
    subst hj
    exact abandon_at reg env _ _ (by simp [Card.resetArrives, hseen]) hphase
  | succ r ih =>
    by_cases hreset : (c.resetArrives (env.resetSeen t.i)).dma.resetRequested = true
    · exact abandon_at reg env _ _ hreset hphase
    · obtain ⟨hnow, hpast⟩ := resetArrives_quiet hreset
      have hne : t.i ≠ j := fun h => by simp [h, hseen] at hnow
      have hlt : t.i < t.blocks := by omega
      have hstep : runTransfer reg env (r + 1 + 1) t.i (c, some t) =
          runTransfer reg env (r + 1) (t.i + 1)
            ((sectorStep reg (env.sector t.i) c t).1, some (sectorStep reg (env.sector t.i) c t).2) := by
        simp [runTransfer, transferStep, Card.resetArrives, hnow, hpast, hok, hlt]
      have hloop : sectorLoop reg env (r + 1) (c, t) =
          sectorLoop reg env r (sectorStep reg (env.sector t.i) c t) := by simp [sectorLoop, hok]
      have hframe := sectorStep_frame reg (env.sector t.i) c t
      have hphase' := sectorStep_phase reg (env.sector t.i) t hphase
      rw [hloop] at hhigh
      rw [hstep]
      rcases hs : sectorStep reg (env.sector t.i) c t with ⟨c', t'⟩
      rw [hs] at hframe hphase' hhigh
      rcases sectorStep_transfer reg (env.sector t.i) c t with h | ⟨w, h⟩
      · rw [hs] at h
        subst h
        rw [sectorLoop_stopped _ _ _ _ rfl] at hhigh
        have hj : t.i + 1 = j := by
          simp only [Transfer.lastBoundary, Bool.false_eq_true, ↓reduceIte] at hhigh
          omega
        obtain ⟨hnone, hf, hp⟩ := abandon_at reg env r (t.i + 1) (c := c')
          (t := { t with transferOk := false })
          (by simp [Card.resetArrives, hj, hseen]) hphase'
        exact ⟨hnone, hframe.trans hf, hp⟩
      · rw [hs] at h
        have hi : t'.i = t.i + 1 := congrArg Transfer.i h
        have hok' : t'.transferOk = true := (congrArg Transfer.transferOk h).trans hok
        have hb : t'.blocks = t.blocks := (congrArg Transfer.blocks h :)
        obtain ⟨hnone, hf, hp⟩ := ih hok' (by omega) hphase' (by omega) hhigh
        rw [← hi]
        exact ⟨hnone, hframe.trans hf, hp⟩

variable (dir : Dir) (env : TransferEnv Io) (c : Card σ) (cmd : List Byte)

/-- The state in which the sector loop of a command ends when no RESET is seen. -/
def loopEnd : Card σ × Transfer :=
  sectorLoop reg env (cdbBlocks cmd) (beginTransfer dir c cmd)

lemma handleSectors_completes (hreset : c.dma.resetRequested = false)
    (henv : ∀ k, env.resetSeen k = false) :
    handleSectors reg dir env c cmd =
      (finishTransfer reg (env.sector (loopEnd reg dir env c cmd).2.lastBoundary)
        (loopEnd reg dir env c cmd).1 (loopEnd reg dir env c cmd).2, none) :=
  runTransfer_completes reg henv (cdbBlocks cmd) (c := (beginTransfer dir c cmd).1)
    (t := (beginTransfer dir c cmd).2) hreset rfl (Nat.zero_add _)

lemma handleSectors_abandoned (hseen : c.dma.resetRequested = true ∨
    ∃ j ≤ (loopEnd reg dir env c cmd).2.lastBoundary, env.resetSeen j = true) :
    TransferAbandoned c (handleSectors reg dir env c cmd).1 := by
  have hframe := beginTransfer_frame dir c cmd
  have hphase := beginTransfer_phase dir c cmd
  rcases hseen with hreset | ⟨j, hj, hseen⟩
  · obtain ⟨_, hf, hp⟩ := abandon_at reg env (cdbBlocks cmd) 0
      (c := (beginTransfer dir c cmd).1) (t := (beginTransfer dir c cmd).2)
      (resetArrives_requested _ hreset) hphase
    exact (hframe.trans hf).abandoned hp
  · obtain ⟨_, hf, hp⟩ := runTransfer_abandoned reg (cdbBlocks cmd)
      (c := (beginTransfer dir c cmd).1) (t := (beginTransfer dir c cmd).2) rfl (Nat.zero_add _)
      hphase (Nat.zero_le j) hj hseen
    exact (hframe.trans hf).abandoned hp

end PicoV9k.Sasi
