import PicoV9k.SasiTransferRun

/-!
# READ(6) end to end

The number of leading sectors that storage delivered and the DMA engine moved
determines everything a READ(6) leaves behind: the status byte, the RAM bytes, the
address registers. The induction is over the sectors, with a frame on RAM.
-/
namespace PicoV9k.Sasi
open PicoV9k.Bus PicoV9k.Storage

variable {Io σ : Type} {reg : Registry Io σ}

def DmaOutcome.answered : DmaOutcome → Bool
  | .ok => true
  | .failed _ => false

/-- One of the handler's attempts is answered. -/
def dmaAnswers (outcome : ℕ → DmaOutcome) : Bool :=
  (List.range sasiDmaSectorRetries).any fun a => (outcome a).answered

/-- The retry loop succeeds iff one of its attempts does; it stays in its window. -/
lemma dmaWriteRetry_spec (outcome : ℕ → DmaOutcome) (start : ℕ) (data : ℕ → Byte) {m : ℕ}
    (hm : m ≤ sasiDmaSectorRetries) (ram : ℕ → Byte) :
    ((dmaWriteRetry outcome start data m ram).2 = true ↔
        ∃ a, sasiDmaSectorRetries - m ≤ a ∧ a < sasiDmaSectorRetries ∧ (outcome a).answered) ∧
      (∀ a, ¬ Wrap.InWindow ramSize start 512 a →
        (dmaWriteRetry outcome start data m ram).1 a = ram a) ∧
      ((dmaWriteRetry outcome start data m ram).2 = true →
        ∀ i < 512, (dmaWriteRetry outcome start data m ram).1 ((start + i) % ramSize) = data i) := by
  induction m generalizing ram with
  | zero =>
    refine ⟨⟨by simp [dmaWriteRetry], ?_⟩, by simp [dmaWriteRetry], by simp [dmaWriteRetry]⟩
    rintro ⟨a, h1, h2, _⟩
    omega
  | succ m ih =>
    cases h : outcome (sasiDmaSectorRetries - (m + 1)) with
    | ok =>
      have hrun : dmaWriteRetry outcome start data (m + 1) ram =
          (Wrap.write ramSize ram start 512 data, true) := by
        simp [dmaWriteRetry, dmaWriteToVictorRam, h]
      rw [hrun]
      refine ⟨⟨fun _ => ⟨_, le_rfl, by omega, by rw [h]; rfl⟩, fun _ => rfl⟩, ?_, ?_⟩
      · exact fun a ha => Wrap.write_outside ha
      · exact fun _ i hi => Wrap.write_inside hi (hi.trans (by decide))
    | failed junk =>
      have hrun : dmaWriteRetry outcome start data (m + 1) ram =
          dmaWriteRetry outcome start data m (Wrap.write ramSize ram start 512 junk) := by
        simp [dmaWriteRetry, dmaWriteToVictorRam, h]
      obtain ⟨hok, hframe, hdata⟩ := ih (by omega) (Wrap.write ramSize ram start 512 junk)
      rw [hrun]
      refine ⟨?_, ?_, hdata⟩
      · rw [hok]
        constructor
        · rintro ⟨a, h1, h2, h3⟩
          exact ⟨a, by omega, h2, h3⟩
        · rintro ⟨a, h1, h2, h3⟩
          refine ⟨a, ?_, h2, h3⟩
          rcases Nat.lt_or_ge a (sasiDmaSectorRetries - m) with hlt | hge
          · have ha : a = sasiDmaSectorRetries - (m + 1) := by omega
            simp [ha, h, DmaOutcome.answered] at h3
          · exact hge
      · intro a ha
        rw [hframe a ha, Wrap.write_outside ha]

lemma dmaWriteRetry_ok (outcome : ℕ → DmaOutcome) (start : ℕ) (data : ℕ → Byte) (ram : ℕ → Byte) :
    (dmaWriteRetry outcome start data sasiDmaSectorRetries ram).2 = dmaAnswers outcome := by
  rw [Bool.eq_iff_iff, (dmaWriteRetry_spec outcome start data le_rfl ram).1]
  simp [dmaAnswers]

/-- How many sectors, from `i` on, are delivered by storage and moved by the DMA engine. -/
def leadingReads (reg : Registry Io σ) (env : TransferEnv Io) (target lba : ℕ) :
    ℕ → ℕ → Routing σ → ℕ
  | 0, _, _ => 0
  | r + 1, i, st =>
    match readSectorFromDisk reg (env.sector i).storage st target (lba + i) with
    | (_, none) => 0
    | (st, some _) =>
      if dmaAnswers (env.sector i).dma then leadingReads reg env target lba r (i + 1) st + 1 else 0

lemma leadingReads_le (env : TransferEnv Io) (target lba : ℕ) (r i : ℕ) (st : Routing σ) :
    leadingReads reg env target lba r i st ≤ r := by
  induction r generalizing i st with
  | zero => simp [leadingReads]
  | succ r ih =>
    unfold leadingReads
    split
    · omega
    · split
      · exact Nat.succ_le_succ (ih _ _)
      · omega

variable (M : ReadView reg)

lemma readSectorFromDisk_kept (io : Io) (st : Routing σ) (target lba : ℕ) :
    (readSectorFromDisk reg io st target lba).1.targetBackend = st.targetBackend ∧
      M.Kept st.media (readSectorFromDisk reg io st target lba).1.media := by
  unfold readSectorFromDisk
  split
  · exact storageReadSector_kept M io st target lba
  · exact ⟨rfl, .refl _⟩

variable {M} in
lemma readSectorFromDisk_data {io : Io} {st : Routing σ} {target lba : ℕ} {data : Sector}
    (hio : M.Honest io) (hs : M.Sound st.media)
    (h : (readSectorFromDisk reg io st target lba).2 = some data) : data = M.sector st target lba := by
  unfold readSectorFromDisk at h
  split at h
  · exact storageReadSector_data hio hs h
  · cases h

/-- Everything one pass of the read loop can do. -/
lemma readSectorStep_cases (reg : Registry Io σ) (io : SectorIo Io) (c : Card σ) (t : Transfer) :
    let rd := readSectorFromDisk reg io.storage c.storage c.target (t.sector + t.i)
    let s := readSectorStep reg io c t
    s.1.storage = rd.1 ∧ s.1.target = c.target ∧
      ((rd.2 = none ∧ s.2 = { t with transferOk := false } ∧ s.1.ram = c.ram) ∨
        ∃ data, rd.2 = some data ∧
          s.1.ram = (dmaWriteRetry io.dma t.localDmaAddr (sectorBytes data)
            sasiDmaSectorRetries c.ram).1 ∧
          s.2 = if dmaAnswers io.dma then
              { t with i := t.i + 1, localDmaAddr := (t.localDmaAddr + 512) % ramSize }
            else { t with transferOk := false }) := by
  intro rd s
  have hs : s = readSectorStep reg io c t := rfl
  rcases hrd : rd with ⟨st, _ | data⟩
  · have hstep : s = ({ c.record (.sector (t.sector + t.i)) with storage := st },
        { t with transferOk := false }) := by
      simp only [hs, readSectorStep, Card.record_storage]
      rw [show readSectorFromDisk reg io.storage c.storage
        (c.record (.sector (t.sector + t.i))).target (t.sector + t.i) = (st, none) from hrd]
    rw [hstep]
    exact ⟨rfl, rfl, .inl ⟨rfl, rfl, rfl⟩⟩
  · have hok := dmaWriteRetry_ok io.dma t.localDmaAddr (sectorBytes data) c.ram
    rcases hw : dmaWriteRetry io.dma t.localDmaAddr (sectorBytes data) sasiDmaSectorRetries c.ram
      with ⟨ram, ok⟩
    rw [hw] at hok
    simp only [hs, readSectorStep, Card.record_storage]
    rw [show readSectorFromDisk reg io.storage c.storage
      (c.record (.sector (t.sector + t.i))).target (t.sector + t.i) = (st, some data) from hrd]
    simp only [Card.sasiBusCtrlSet_ram, Card.record_ram, hw]
    cases ok with
    | false =>
      simp only [← hok]
      exact ⟨rfl, rfl, .inr ⟨data, rfl, by rw [hw], rfl⟩⟩
    | true =>
      simp only [← hok, advanceSector_storage, advanceSector_target, advanceSector_ram]
      exact ⟨rfl, rfl, .inr ⟨data, rfl, by rw [hw], rfl⟩⟩

/-- What `k` good sectors of a read loop with `r` sectors to go have done. -/
structure ReadProgress (c c' : Card σ) (t t' : Transfer) (r k : ℕ) : Prop where
  transferOk : t'.transferOk = decide (k = r)
  position : t'.i = t.i + k ∧ t'.sector = t.sector ∧ t'.blocks = t.blocks ∧ t'.dir = t.dir
  address : t'.localDmaAddr = (t.localDmaAddr + 512 * k) % ramSize
  media : c'.storage.targetBackend = c.storage.targetBackend ∧ M.Kept c.storage.media c'.storage.media
  bytes : ∀ x < 512 * k, c'.ram ((t.localDmaAddr + x) % ramSize) =
    sectorBytes (M.sector c.storage c.target (t.sector + t.i + x / 512)) (x % 512)
  outside : ∀ a, (∀ j ≤ k, j < r → ¬ Wrap.InWindow ramSize (t.localDmaAddr + 512 * j) 512 a) →
    c'.ram a = c.ram a

/-- No sector counts: at most the first window was written. -/
lemma ReadProgress.stop {c c' : Card σ} {t : Transfer} {r : ℕ} (haddr : t.localDmaAddr < ramSize)
    (hroute : c'.storage.targetBackend = c.storage.targetBackend)
    (hkept : M.Kept c.storage.media c'.storage.media)
    (hout : ∀ a, ¬ Wrap.InWindow ramSize t.localDmaAddr 512 a → c'.ram a = c.ram a) :
    ReadProgress M c c' t { t with transferOk := false } (r + 1) 0 where
  transferOk := by simp
  position := by simp
  address := by simp [Nat.mod_eq_of_lt haddr]
  media := ⟨hroute, hkept⟩
  bytes := by simp
  outside := fun a h => hout a (by simpa using h 0 le_rfl (by omega))

/-- A good first sector followed by the progress of the remaining loop. -/
lemma ReadProgress.cons {c c₁ c' : Card σ} {t t₁ t' : Transfer} {r k : ℕ} (hr : r + 1 ≤ 256)
    (ht₁ : t₁ = { t with i := t.i + 1, localDmaAddr := (t.localDmaAddr + 512) % ramSize })
    (htarget : c₁.target = c.target)
    (hroute : c₁.storage.targetBackend = c.storage.targetBackend)
    (hkept : M.Kept c.storage.media c₁.storage.media)
    (hin : ∀ i < 512, c₁.ram ((t.localDmaAddr + i) % ramSize) =
      sectorBytes (M.sector c.storage c.target (t.sector + t.i)) i)
    (hout : ∀ a, ¬ Wrap.InWindow ramSize t.localDmaAddr 512 a → c₁.ram a = c.ram a)
    (h : ReadProgress M c₁ c' t₁ t' r k) : ReadProgress M c c' t t' (r + 1) (k + 1) := by
  have hwin (j a : ℕ) : Wrap.InWindow ramSize (t₁.localDmaAddr + 512 * j) 512 a ↔
      Wrap.InWindow ramSize (t.localDmaAddr + 512 * (j + 1)) 512 a := by
    rw [ht₁, ← Wrap.inWindow_mod, ← Wrap.inWindow_mod (t.localDmaAddr + 512 * (j + 1))]
    simp only [Nat.mod_add_mod]
    rw [show t.localDmaAddr + 512 + 512 * j = t.localDmaAddr + 512 * (j + 1) by ring]
  have hsector (lba : ℕ) : M.sector c₁.storage c₁.target lba = M.sector c.storage c.target lba := by
    rw [htarget, hkept.sector hroute]
  have hsize : 512 * 256 + 512 ≤ ramSize := by decide
  obtain ⟨hi, hsec, hblocks, hdir⟩ := h.position
  refine ⟨?_, ?_, ?_, ⟨h.media.1.trans hroute, hkept.trans h.media.2⟩, ?_, ?_⟩
  · rw [h.transferOk]
    simp
  · subst ht₁
    exact ⟨by simp only at hi; omega, hsec, hblocks, hdir⟩
  · rw [h.address, ht₁, show t.localDmaAddr + 512 * (k + 1) = t.localDmaAddr + 512 + 512 * k by ring]
    simp only [Nat.mod_add_mod]
  · intro x hx
    rcases Nat.lt_or_ge x 512 with hlt | hge
    · -- bytes of the first sector survive the later windows
      rw [h.outside, hin x hlt, Nat.div_eq_of_lt hlt, Nat.mod_eq_of_lt hlt, Nat.add_zero]
      intro j hj hjr
      rw [hwin]
      exact Wrap.not_inWindow_later _ _ (by omega) (by omega)
    · have hx' : (t.localDmaAddr + x) % ramSize = (t₁.localDmaAddr + (x - 512)) % ramSize := by
        rw [show t.localDmaAddr + x = t.localDmaAddr + 512 + (x - 512) by omega, ht₁]
        simp only [Nat.mod_add_mod]
      have hlba : t₁.sector + t₁.i + (x - 512) / 512 = t.sector + t.i + x / 512 := by
        rw [ht₁]
        simp only
        omega
      rw [hx', h.bytes _ (by omega), hlba, hsector, show (x - 512) % 512 = x % 512 by omega]
  · intro a ha
    rw [h.outside a fun j hj hjr => (hwin j a).not.mpr (ha (j + 1) (by omega) (by omega)),
      hout a (by simpa using ha 0 (by omega) (by omega))]

/-- The sector loop of READ(6) makes exactly the progress its leading good sectors allow. -/
theorem readLoop_progress {env : TransferEnv Io} (hio : ∀ j, M.Honest (env.sector j).storage) {r : ℕ}
    (hr : r ≤ 256) {c : Card σ} {t : Transfer} (hs : M.Sound c.storage.media) (hdir : t.dir = .read)
    (hok : t.transferOk = true) (haddr : t.localDmaAddr < ramSize) :
    ReadProgress M c (sectorLoop reg env r (c, t)).1 t (sectorLoop reg env r (c, t)).2 r
      (leadingReads reg env c.target t.sector r t.i c.storage) := by
  induction r generalizing c t with
  | zero =>
    simp only [sectorLoop, leadingReads]
    exact ⟨by simp [hok], by simp, by simp [Nat.mod_eq_of_lt haddr], ⟨rfl, .refl _⟩, by simp,
      fun _ _ => rfl⟩
  | succ r ih =>
    set k := leadingReads reg env c.target t.sector (r + 1) t.i c.storage with hk
    obtain ⟨hst, htarget, hcase⟩ := readSectorStep_cases reg (env.sector t.i) c t
    have hloop : sectorLoop reg env (r + 1) (c, t) =
        sectorLoop reg env r (readSectorStep reg (env.sector t.i) c t) := by
      simp [sectorLoop, hok, sectorStep, hdir]
    obtain ⟨hroute, hkept⟩ :=
      readSectorFromDisk_kept M (env.sector t.i).storage c.storage c.target (t.sector + t.i)
    rw [hloop]
    rcases hstep : readSectorStep reg (env.sector t.i) c t with ⟨c', t'⟩
    rcases hrd : readSectorFromDisk reg (env.sector t.i).storage c.storage c.target (t.sector + t.i)
      with ⟨st, d⟩
    simp only [hstep, hrd] at hst htarget hcase hroute hkept
    rcases hcase with ⟨hnone, ht', hram⟩ | ⟨data, hsome, hram, ht'⟩
    · -- storage failed: nothing moves
      have hk0 : k = 0 := by simp [hk, leadingReads, hrd, hnone]
      rw [sectorLoop_stopped _ _ _ _ (by rw [ht']), hk0]
      subst ht'
      exact .stop M haddr (by rw [hst]; exact hroute) (by rw [hst]; exact hkept)
        (fun a _ => by rw [hram])
    · obtain ⟨hretry, hout, hin⟩ :=
        dmaWriteRetry_spec (env.sector t.i).dma t.localDmaAddr (sectorBytes data) le_rfl c.ram
      rw [← hram] at hout hin
      cases hans : dmaAnswers (env.sector t.i).dma with
      | false =>
        have hk0 : k = 0 := by simp [hk, leadingReads, hrd, hsome, hans]
        rw [hans, if_neg (by simp)] at ht'
        rw [sectorLoop_stopped _ _ _ _ (by rw [ht']), hk0]
        subst ht'
        exact .stop M haddr (by rw [hst]; exact hroute) (by rw [hst]; exact hkept) hout
      | true =>
        have hdata : data = M.sector c.storage c.target (t.sector + t.i) :=
          readSectorFromDisk_data (hio t.i) hs (by rw [hrd]; exact hsome)
        rw [hans, if_pos rfl] at ht'
        have hrest := ih (c := c') (t := t') (by omega) (by rw [hst]; exact hkept.sound hs) (by rw [ht']; exact hdir)
          (by rw [ht']; exact hok) (by rw [ht']; exact Nat.mod_lt _ (by decide))
        have hk1 : k = leadingReads reg env c'.target t'.sector r t'.i c'.storage + 1 := by
          simp [hk, leadingReads, hrd, hsome, hans, ht', htarget, hst]
        rw [hk1]
        have hok' := dmaWriteRetry_ok (env.sector t.i).dma t.localDmaAddr (sectorBytes data) c.ram
        rw [hans] at hok'
        exact .cons M hr ht' htarget (by rw [hst]; exact hroute)
          (by rw [hst]; exact hkept) (by rw [← hdata]; exact hin hok') hout hrest

/-- A READ(6) that ran to its status phase, with `k` leading good sectors. -/
structure ReadSixDone (c c' : Card σ) (cmd : List Byte) (k : ℕ) : Prop where
  good : c'.dma.status = sasiStatusGood ↔ k = cdbBlocks cmd
  check : k ≠ cdbBlocks cmd → c'.dma.status = sasiStatusCheckCondition
  statusPhase : StatusEntered c' c'.dma.status
  bytes : ∀ i < 512 * k, c'.ram ((c.dma.dmaAddress.full + i) % ramSize) =
    sectorBytes (M.sector c.storage c.target (cdbLba cmd + i / 512)) (i % 512)
  outside : ∀ a, (∀ j ≤ min k (cdbBlocks cmd - 1),
    ¬ Wrap.InWindow ramSize (c.dma.dmaAddress.full + 512 * j) 512 a) → c'.ram a = c.ram a
  disk : ∀ target lba, M.sector c'.storage target lba = M.sector c.storage target lba
  address : c'.dma.dmaAddress.full = (c.dma.dmaAddress.full + 512 * k) % ramSize
  addressCells : CachedRegs.address c'.cache = (c.dma.dmaAddress.full + 512 * k) % ramSize

/-- How the sector loop of a READ(6) ends. -/
lemma readLoop_end {env : TransferEnv Io} (hio : ∀ j, M.Honest (env.sector j).storage) {c : Card σ}
    (hs : M.Sound c.storage.media) (cmd : List Byte) :
    ReadProgress M c (loopEnd reg .read env c cmd).1 (beginTransfer .read c cmd).2
      (loopEnd reg .read env c cmd).2 (cdbBlocks cmd)
      (leadingReads reg env c.target (cdbLba cmd) (cdbBlocks cmd) 0 c.storage) := by
  have h := readLoop_progress M hio (cdbBlocks_le cmd) (c := (beginTransfer .read c cmd).1)
    (t := (beginTransfer .read c cmd).2) hs rfl rfl (Nat.mod_lt _ (by decide))
  exact ⟨h.transferOk, h.position, h.address, h.media, h.bytes, h.outside⟩

/-- The command on any view of the media, from a sound state and with honest answers. -/
theorem handleReadSectors_done {env : TransferEnv Io} (hio : ∀ j, M.Honest (env.sector j).storage) {c : Card σ}
    (hs : M.Sound c.storage.media) (cmd : List Byte) :
    let n := cdbBlocks cmd
    let k := leadingReads reg env c.target (cdbLba cmd) n 0 c.storage
    let c' := handleReadSectors reg env c cmd
    (c.dma.resetRequested = false → (∀ j, env.resetSeen j = false) →
        k ≤ n ∧ ReadSixDone M c c' cmd k) ∧
      ((c.dma.resetRequested = true ∨ ∃ j ≤ min (k + 1) n, env.resetSeen j = true) →
        TransferAbandoned c c') := by
  intro n k c'
  have hp := readLoop_end M hio hs cmd
  set e := loopEnd reg .read env c cmd with he
  have hkn : k ≤ n := leadingReads_le _ _ _ _ _ _
  have hpos : 0 < n := cdbBlocks_pos cmd
  have hok : e.2.transferOk = decide (k = n) := hp.transferOk
  have hlocal : (beginTransfer .read c cmd).2.localDmaAddr = c.dma.dmaAddress.full % ramSize := rfl
  have hfirst : (beginTransfer .read c cmd).2.sector + (beginTransfer .read c cmd).2.i = cdbLba cmd :=
    Nat.add_zero _
  have haddr : e.2.localDmaAddr = (c.dma.dmaAddress.full + 512 * k) % ramSize := by
    rw [hp.address, hlocal, Nat.mod_add_mod]
  constructor
  · intro hreset henv
    have hc' : c' = completeTransfer e.1 e.2 := by
      have hdir : e.2.dir = .read := hp.position.2.2.2
      simp only [c', handleReadSectors, handleSectors_completes _ _ _ _ _ hreset henv, ← he,
        finishTransfer, hdir]
    obtain ⟨hram, hst, hfull, hcells, hentered⟩ :=
      completeTransfer_spec e.1 (t := e.2) (by rw [haddr]; exact Nat.mod_lt _ (by decide))
    rw [← hc'] at hram hst hfull hcells hentered
    have hstatus : c'.dma.status = if k = n then sasiStatusGood else sasiStatusCheckCondition := by
      rw [hentered.status, Transfer.statusByte, hok]
      simp
    refine ⟨hkn, ?_, ?_, ?_, ?_, ?_, ?_, hfull.trans haddr, hcells.trans haddr⟩
    · rw [hstatus]
      split <;> simp_all [n]
    · intro hne
      rw [hstatus, if_neg hne]
    · rw [hentered.status]
      exact hentered
    · intro i hi
      have hbytes := hp.bytes i hi
      rw [hlocal, Nat.mod_add_mod, hfirst] at hbytes
      rw [hram, hbytes]
    · intro a ha
      rw [hram, hp.outside a]
      intro j hj hjn
      have hout := ha j (le_min hj (Nat.le_sub_one_of_lt hjn))
      rwa [hlocal, ← Wrap.inWindow_mod, Nat.mod_add_mod, Wrap.inWindow_mod]
    · intro target lba
      rw [hst, hp.media.2.sector hp.media.1]
  · rintro (hreset | ⟨j, hj, hseen⟩)
    · exact handleSectors_abandoned reg .read env c cmd (.inl hreset)
    · refine handleSectors_abandoned reg .read env c cmd (.inr ⟨j, ?_, hseen⟩)
      have hi : e.2.i = 0 + k := hp.position.1
      rw [← he, Transfer.lastBoundary, hok, hi]
      by_cases hfull : k = n
      · simp [hfull] at hj ⊢
        exact hj
      · simp [hfull] at hj ⊢
        omega

/-- READ(6) end to end: the leading good sectors reach memory and decide the status. -/
theorem handleReadSectors_endToEnd (M : MediaView reg) (env : TransferEnv Io) (c : Card σ) (cmd : List Byte) :
    let n := cdbBlocks cmd
    let k := leadingReads reg env c.target (cdbLba cmd) n 0 c.storage
    let c' := handleReadSectors reg env c cmd
    (c.dma.resetRequested = false → (∀ j, env.resetSeen j = false) →
        k ≤ n ∧ ReadSixDone M.toReadView c c' cmd k) ∧
      ((c.dma.resetRequested = true ∨ ∃ j ≤ min (k + 1) n, env.resetSeen j = true) →
        TransferAbandoned c c') :=
  handleReadSectors_done M.toReadView (fun _ => M.honest _) (M.sound _) cmd

/-- A card on a disk in memory whose target 0 is mounted. -/
def memoryCard : Card (ℕ → ℕ → Sector) :=
  .initial (fun _ => 0) { Routing.initial (fun _ lba _ => BitVec.ofNat 8 lba) with
    targetBackend := fun _ => .sdcard }

/-- The DMA engine answers at the second attempt, and from the third sector on not at all. -/
def fadingDma (resetSeen : ℕ → Bool) : TransferEnv Unit :=
  ⟨fun j => ⟨(), fun a => if a = 1 ∧ j < 2 then .ok else .failed fun _ => 0xFF⟩, resetSeen⟩

/-- Of four sectors two are moved to address 0; the same command under a RESET. -/
theorem handleReadSectors_endToEnd_memory :
    ReadSixDone memoryView.toReadView memoryCard
        (handleReadSectors memoryRegistry (fadingDma fun _ => false) memoryCard [8, 0, 0, 7, 4, 0])
        [8, 0, 0, 7, 4, 0] 2 ∧
      TransferAbandoned memoryCard
        (handleReadSectors memoryRegistry (fadingDma fun j => j == 2) memoryCard [8, 0, 0, 7, 4, 0]) := by
  refine ⟨?_, ?_⟩
  · exact ((handleReadSectors_endToEnd memoryView (fadingDma fun _ => false) memoryCard
      [8, 0, 0, 7, 4, 0]).1 rfl (fun _ => rfl)).2
  · exact (handleReadSectors_endToEnd memoryView (fadingDma fun j => j == 2) memoryCard
      [8, 0, 0, 7, 4, 0]).2 (.inr ⟨2, by decide, rfl⟩)

end PicoV9k.Sasi
