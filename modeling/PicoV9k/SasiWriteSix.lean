import PicoV9k.CardImages
import PicoV9k.SasiReadSix

/-!
# WRITE(6) end to end

Sectors are fetched from RAM, written, counted and finally synced. The count of
leading good sectors and the outcome of the one sync after the loop determine the
status byte; every other sector of the image, and every other image, is framed.
-/
namespace PicoV9k.Sasi
open PicoV9k.Bus PicoV9k.Storage

variable {Io σ : Type} {reg : Registry Io σ}

/-- The 512 RAM bytes from `addr` on, across the 1 MB wrap. -/
def ramSector (ram : ℕ → Byte) (addr : ℕ) : Sector := fun i => ram ((addr + i) % ramSize)

lemma ramSector_mod (ram : ℕ → Byte) (addr : ℕ) :
    ramSector ram (addr % ramSize) = ramSector ram addr := by
  funext i
  simp only [ramSector, Nat.mod_add_mod]

lemma dmaReadRetry_attempts (outcome : ℕ → DmaOutcome) (ram : ℕ → Byte) (start : ℕ) {m : ℕ}
    (hm : m ≤ sasiDmaSectorRetries) :
    ((∃ a, sasiDmaSectorRetries - m ≤ a ∧ a < sasiDmaSectorRetries ∧ (outcome a).answered) ∧
        dmaReadRetry outcome ram start m = some fun i => ram ((start + i) % ramSize)) ∨
      ((¬ ∃ a, sasiDmaSectorRetries - m ≤ a ∧ a < sasiDmaSectorRetries ∧ (outcome a).answered) ∧
        dmaReadRetry outcome ram start m = none) := by
  induction m with
  | zero =>
    refine .inr ⟨?_, rfl⟩
    rintro ⟨a, h1, h2, _⟩
    omega
  | succ m ih =>
    cases h : outcome (sasiDmaSectorRetries - (m + 1)) with
    | ok =>
      refine .inl ⟨⟨_, le_rfl, by omega, by rw [h]; rfl⟩, ?_⟩
      simp [dmaReadRetry, dmaReadFromVictorRam, h]
    | failed junk =>
      have hrun : dmaReadRetry outcome ram start (m + 1) = dmaReadRetry outcome ram start m := by
        simp [dmaReadRetry, dmaReadFromVictorRam, h]
      rw [hrun]
      rcases ih (by omega) with ⟨⟨a, h1, h2, h3⟩, hsome⟩ | ⟨hno, hnone⟩
      · exact .inl ⟨⟨a, by omega, h2, h3⟩, hsome⟩
      · refine .inr ⟨?_, hnone⟩
        rintro ⟨a, h1, h2, h3⟩
        have hne : a ≠ sasiDmaSectorRetries - (m + 1) := by
          rintro rfl
          simp [h, DmaOutcome.answered] at h3
        exact hno ⟨a, by omega, h2, h3⟩

lemma dmaReadRetry_eq (outcome : ℕ → DmaOutcome) (ram : ℕ → Byte) (start : ℕ) :
    dmaReadRetry outcome ram start sasiDmaSectorRetries =
      if dmaAnswers outcome then some fun i => ram ((start + i) % ramSize) else none := by
  have hiff : dmaAnswers outcome = true ↔ ∃ a, sasiDmaSectorRetries - sasiDmaSectorRetries ≤ a ∧
      a < sasiDmaSectorRetries ∧ (outcome a).answered := by
    simp [dmaAnswers]
  rcases dmaReadRetry_attempts outcome ram start le_rfl with ⟨h, hsome⟩ | ⟨h, hnone⟩
  · rw [hsome, if_pos (hiff.mpr h)]
  · rw [hnone, if_neg (mt hiff.mp h)]

/-- The sectors, from `i` on, that are fetched by DMA and written, and the storage after them. -/
def writeRun (reg : Registry Io σ) (env : TransferEnv Io) (ram : ℕ → Byte) (start target lba : ℕ) :
    ℕ → ℕ → Routing σ → ℕ × Routing σ
  | 0, _, st => (0, st)
  | r + 1, i, st =>
    if dmaAnswers (env.sector i).dma && storageIsMounted reg st target then
      match storageWriteSector reg (env.sector i).storage st target (lba + i)
        (ramSector ram (start + 512 * i)) with
      | (st, true) =>
        let rest := writeRun reg env ram start target lba r (i + 1) st
        (rest.1 + 1, rest.2)
      | (st, false) => (0, st)
    else (0, st)

lemma writeRun_le (env : TransferEnv Io) (ram : ℕ → Byte) (start target lba r i : ℕ)
    (st : Routing σ) : (writeRun reg env ram start target lba r i st).1 ≤ r := by
  induction r generalizing i st with
  | zero => exact le_rfl
  | succ r ih =>
    unfold writeRun
    split
    · split
      · exact Nat.succ_le_succ (ih _ _)
      · exact Nat.zero_le _
    · exact Nat.zero_le _

/-- Everything one pass of the write loop can do. -/
lemma writeSectorStep_cases (reg : Registry Io σ) (io : SectorIo Io) (c : Card σ) (t : Transfer) :
    let w := storageWriteSector reg io.storage c.storage t.target (t.sector + t.i)
      (ramSector c.ram t.localDmaAddr)
    let s := writeSectorStep reg io c t
    s.1.ram = c.ram ∧
      (((dmaAnswers io.dma && storageIsMounted reg c.storage t.target) = false ∧
          s.1.storage = c.storage ∧ s.2 = { t with transferOk := false }) ∨
        ((dmaAnswers io.dma && storageIsMounted reg c.storage t.target) = true ∧
          s.1.storage = w.1 ∧
          s.2 = if w.2 then
              { t with i := t.i + 1, localDmaAddr := (t.localDmaAddr + 512) % ramSize,
                       anyStorageWrites := true }
            else { t with transferOk := false })) := by
  rcases hw : storageWriteSector reg io.storage c.storage t.target (t.sector + t.i)
    (ramSector c.ram t.localDmaAddr) with ⟨st, ok⟩
  have hw' : storageWriteSector reg io.storage c.storage t.target (t.sector + t.i)
    (fun i => c.ram ((t.localDmaAddr + i) % ramSize)) = (st, ok) := hw
  unfold writeSectorStep
  simp only [Card.sasiBusCtrlSet_ram, Card.sasiBusCtrlSet_storage, Card.record_ram,
    Card.record_storage, dmaReadRetry_eq]
  by_cases hans : dmaAnswers io.dma = true
  · by_cases hm : storageIsMounted reg c.storage t.target = true
    · cases ok with
      | false => simp [hans, hm, hw']
      | true => simp [hans, hm, hw']
    · simp [hans, hm]
  · simp [hans]

/-- What `k` good sectors of a write loop with `r` sectors to go have done. -/
structure WriteProgress (M : WritableView reg) (c c' : Card σ) (t t' : Transfer) (r k : ℕ) : Prop where
  transferOk : t'.transferOk = decide (k = r)
  position : t'.i = t.i + k ∧ t'.sector = t.sector ∧ t'.blocks = t.blocks ∧ t'.dir = t.dir ∧
    t'.target = t.target
  address : t'.localDmaAddr = (t.localDmaAddr + 512 * k) % ramSize
  anyWrites : t'.anyStorageWrites = (t.anyStorageWrites || decide (0 < k))
  ram : c'.ram = c.ram
  mounted : 0 < r → k = r → storageIsMounted reg c'.storage t.target = true
  routing : c'.storage.targetBackend = c.storage.targetBackend
  images : M.behind c'.storage = M.behind c.storage
  sound : M.Sound c'.storage.media
  written : ∀ j < k, M.sector c'.storage t.target (t.sector + t.i + j) =
    ramSector c.ram (t.localDmaAddr + 512 * j)
  others : ∀ i lba, (∀ j ≤ k, j < r → (i, lba) ≠ (M.behind c.storage t.target, t.sector + t.i + j)) →
    M.disk c'.storage.media i lba = M.disk c.storage.media i lba

variable (M : WritableView reg)

/-- No sector counts: at most the first one was touched. -/
lemma WriteProgress.stop {c c' : Card σ} {t : Transfer} {r : ℕ} {data : Sector} {ok : Bool}
    (haddr : t.localDmaAddr < ramSize) (hram : c'.ram = c.ram)
    (hroute : c'.storage.targetBackend = c.storage.targetBackend)
    (hstored : M.Stored (M.behind c.storage t.target) (t.sector + t.i) data c.storage.media
      (c'.storage.media, ok)) :
    WriteProgress M c c' t { t with transferOk := false } (r + 1) 0 where
  transferOk := by simp
  position := by simp
  address := by simp [Nat.mod_eq_of_lt haddr]
  anyWrites := by simp
  ram := hram
  mounted := fun _ h => absurd h (by omega)
  routing := hroute
  images := hstored.behind hroute
  sound := hstored.sound
  written := fun j h => absurd h (by omega)
  others := fun i lba h => hstored.others i lba (by simpa using h 0 le_rfl (by omega))

/-- A good first sector followed by the progress of the remaining loop. -/
lemma WriteProgress.cons {c c₁ c' : Card σ} {t t₁ t' : Transfer} {r k : ℕ}
    (ht₁ : t₁ = { t with i := t.i + 1, localDmaAddr := (t.localDmaAddr + 512) % ramSize,
                         anyStorageWrites := true })
    (hram : c₁.ram = c.ram) (hroute : c₁.storage.targetBackend = c.storage.targetBackend)
    (hmounted : storageIsMounted reg c₁.storage t.target = true)
    (hstored : M.Stored (M.behind c.storage t.target) (t.sector + t.i) (ramSector c.ram t.localDmaAddr)
      c.storage.media (c₁.storage.media, true))
    (hstay : r = 0 → c' = c₁)
    (h : WriteProgress M c₁ c' t₁ t' r k) : WriteProgress M c c' t t' (r + 1) (k + 1) := by
  have hbehind := hstored.behind hroute
  have haddr (j : ℕ) : ramSector c₁.ram (t₁.localDmaAddr + 512 * j) =
      ramSector c.ram (t.localDmaAddr + 512 * (j + 1)) := by
    rw [← ramSector_mod, ← ramSector_mod c.ram, ht₁, hram]
    simp only [Nat.mod_add_mod]
    rw [show t.localDmaAddr + 512 + 512 * j = t.localDmaAddr + 512 * (j + 1) by ring]
  have hlba (j : ℕ) : t₁.sector + t₁.i + j = t.sector + t.i + (j + 1) := by
    rw [ht₁]
    simp only
    omega
  have htarget : t₁.target = t.target := by rw [ht₁]
  obtain ⟨hi, hsec, hblocks, hdir, htgt⟩ := h.position
  refine ⟨?_, ?_, ?_, ?_, h.ram.trans hram, ?_, h.routing.trans hroute, h.images.trans hbehind, h.sound, ?_, ?_⟩
  · rw [h.transferOk]
    simp
  · subst ht₁
    exact ⟨by simp only at hi; omega, hsec, hblocks, hdir, htgt⟩
  · rw [h.address, ht₁, show t.localDmaAddr + 512 * (k + 1) = t.localDmaAddr + 512 + 512 * k by ring]
    simp only [Nat.mod_add_mod]
  · rw [h.anyWrites, ht₁]
    simp
  · intro _ hk
    rcases Nat.eq_zero_or_pos r with hr | hr
    · rw [hstay hr]
      exact hmounted
    · rw [← htarget]
      exact h.mounted hr (by omega)
  · intro j hj
    cases j with
    | zero =>
      have hlast : M.disk c'.storage.media (M.behind c.storage t.target) (t.sector + t.i) =
          M.disk c₁.storage.media (M.behind c.storage t.target) (t.sector + t.i) := by
        refine h.others _ _ fun j _ _ heq => ?_
        rw [hlba] at heq
        simp only [Prod.mk.injEq] at heq
        omega
      unfold ImageTable.sector
      rw [h.images, hbehind, Nat.add_zero, hlast, Nat.mul_zero, Nat.add_zero]
      exact hstored.stored rfl
    | succ j =>
      have hw := h.written j (by omega)
      rwa [hlba, htarget, haddr] at hw
  · intro i lba hne
    rw [h.others i lba fun j hj hjr => by
        rw [hlba, htarget, hbehind]
        exact hne (j + 1) (by omega) (by omega)]
    exact hstored.others i lba (by simpa using hne 0 (by omega) (by omega))

/-- The sector loop of WRITE(6) makes exactly the progress of `writeRun`. -/
theorem writeLoop_progress (env : TransferEnv Io) (start : ℕ) {r : ℕ} {c : Card σ} {t : Transfer}
    (hs : M.Sound c.storage.media) (hdir : t.dir = .write) (hok : t.transferOk = true)
    (haddr : t.localDmaAddr = (start + 512 * t.i) % ramSize) :
    WriteProgress M c (sectorLoop reg env r (c, t)).1 t (sectorLoop reg env r (c, t)).2 r
        (writeRun reg env c.ram start t.target t.sector r t.i c.storage).1 ∧
      (sectorLoop reg env r (c, t)).1.storage =
        (writeRun reg env c.ram start t.target t.sector r t.i c.storage).2 := by
  have hlt : t.localDmaAddr < ramSize := haddr ▸ Nat.mod_lt _ (by decide)
  induction r generalizing c t with
  | zero =>
    refine ⟨⟨?_, ?_, ?_, ?_, rfl, ?_, rfl, rfl, hs, ?_, fun _ _ _ => rfl⟩, rfl⟩ <;>
      simp [sectorLoop, writeRun, hok, Nat.mod_eq_of_lt hlt]
  | succ r ih =>
    obtain ⟨hram, hcase⟩ := writeSectorStep_cases reg (env.sector t.i) c t
    have hloop : sectorLoop reg env (r + 1) (c, t) =
        sectorLoop reg env r (writeSectorStep reg (env.sector t.i) c t) := by
      simp [sectorLoop, hok, sectorStep, hdir]
    have hfetch : ramSector c.ram t.localDmaAddr = ramSector c.ram (start + 512 * t.i) := by
      rw [haddr, ramSector_mod]
    rw [hloop]
    rcases hstep : writeSectorStep reg (env.sector t.i) c t with ⟨c', t'⟩
    rw [hstep, hfetch] at hcase
    rw [hstep] at hram
    rcases hcase with ⟨hbad, hst, ht'⟩ | ⟨hgood, hst, ht'⟩
    · have hrun : writeRun reg env c.ram start t.target t.sector (r + 1) t.i c.storage =
          (0, c.storage) := by simp [writeRun, hbad]
      simp only at ht' hst hram
      rw [hrun, sectorLoop_stopped _ _ _ _ (by rw [ht'])]
      subst ht'
      have hstored : M.Stored (M.behind c.storage t.target) (t.sector + t.i) (ramSector c.ram t.localDmaAddr)
          c.storage.media (c'.storage.media, false) := by
        rw [hst]
        exact .refused _ _ _ hs
      exact ⟨.stop M hlt hram (by rw [hst]) hstored, hst⟩
    · have hroute := storageWriteSector_routing reg (env.sector t.i).storage c.storage t.target
        (t.sector + t.i) (ramSector c.ram (start + 512 * t.i))
      have hstored := storageWriteSector_stored M (env.sector t.i).storage c.storage t.target
        (t.sector + t.i) (ramSector c.ram (start + 512 * t.i)) hs
      rcases hw : storageWriteSector reg (env.sector t.i).storage c.storage t.target (t.sector + t.i)
        (ramSector c.ram (start + 512 * t.i)) with ⟨st, ok⟩
      rw [hw] at hroute hst ht' hstored
      have hm : storageIsMounted reg c.storage t.target = true := (Bool.and_eq_true_iff.mp hgood).2
      simp only at hst ht' hram hroute hstored
      rw [← hst] at hstored
      cases ok with
      | false =>
        have hrun : writeRun reg env c.ram start t.target t.sector (r + 1) t.i c.storage =
            (0, st) := by simp [writeRun, hgood, hw]
        rw [if_neg (by simp)] at ht'
        rw [hrun, sectorLoop_stopped _ _ _ _ (by rw [ht'])]
        subst ht'
        exact ⟨.stop M hlt hram (by rw [hst]; exact hroute) hstored, hst⟩
      | true =>
        have hrun : writeRun reg env c.ram start t.target t.sector (r + 1) t.i c.storage =
            ((writeRun reg env c.ram start t.target t.sector r (t.i + 1) st).1 + 1,
              (writeRun reg env c.ram start t.target t.sector r (t.i + 1) st).2) := by
          simp [writeRun, hgood, hw]
        rw [if_pos rfl] at ht'
        have haddr' : t'.localDmaAddr = (start + 512 * t'.i) % ramSize := by
          rw [ht', haddr]
          simp only [Nat.mod_add_mod]
          rw [show start + 512 * t.i + 512 = start + 512 * (t.i + 1) by ring]
        obtain ⟨hrest, hstore⟩ := ih (c := c') (t := t') hstored.sound (by rw [ht']; exact hdir)
          (by rw [ht']; exact hok) haddr' (haddr' ▸ Nat.mod_lt _ (by decide))
        have hsame : writeRun reg env c'.ram start t'.target t'.sector r t'.i c'.storage =
            writeRun reg env c.ram start t.target t.sector r (t.i + 1) st := by
          rw [ht', hram, hst]
        rw [hsame] at hrest hstore
        rw [hrun]
        refine ⟨.cons M ht' hram (by rw [hst]; exact hroute) ?_ ?_ ?_ hrest, hstore⟩
        · have hmounted := storageWriteSector_mounted M (env.sector t.i).storage c.storage t.target
            (t.sector + t.i) (ramSector c.ram (start + 512 * t.i)) hm (by rw [hw])
          rw [hw] at hmounted
          rw [hst]
          exact hmounted
        · rw [hfetch]
          exact hstored
        · rintro rfl
          rfl

/-- A WRITE(6) that ran to its status phase. `k` sectors were fetched and written;
`sync` is what the one sync after a full loop does and answers. -/
structure WriteSixDone (c c' : Card σ) (cmd : List Byte) (k : ℕ) (sync : Routing σ × Bool) : Prop where
  good : c'.dma.status = sasiStatusGood ↔ k = cdbBlocks cmd ∧ sync.2 = true
  check : ¬ (k = cdbBlocks cmd ∧ sync.2 = true) → c'.dma.status = sasiStatusCheckCondition
  synced : k = cdbBlocks cmd → c'.storage = sync.1
  statusPhase : StatusEntered c' c'.dma.status
  written : ∀ j < k, M.sector c'.storage c.target (cdbLba cmd + j) =
    ramSector c.ram (c.dma.dmaAddress.full + 512 * j)
  images : M.behind c'.storage = M.behind c.storage
  others : ∀ i lba, (i = M.behind c.storage c.target → ∀ j ≤ min k (cdbBlocks cmd - 1), lba ≠ cdbLba cmd + j) →
    M.disk c'.storage.media i lba = M.disk c.storage.media i lba
  ram : c'.ram = c.ram
  address : c'.dma.dmaAddress.full = (c.dma.dmaAddress.full + 512 * k) % ramSize
  addressCells : CachedRegs.address c'.cache = (c.dma.dmaAddress.full + 512 * k) % ramSize

/-- How the sector loop of a WRITE(6) ends. -/
lemma writeLoop_end (env : TransferEnv Io) {c : Card σ} (hs : M.Sound c.storage.media) (cmd : List Byte) :
    let run := writeRun reg env c.ram c.dma.dmaAddress.full c.target (cdbLba cmd) (cdbBlocks cmd) 0
      c.storage
    WriteProgress M c (loopEnd reg .write env c cmd).1 (beginTransfer .write c cmd).2
        (loopEnd reg .write env c cmd).2 (cdbBlocks cmd) run.1 ∧
      (loopEnd reg .write env c cmd).1.storage = run.2 := by
  have h := writeLoop_progress M env c.dma.dmaAddress.full (r := cdbBlocks cmd)
    (c := (beginTransfer .write c cmd).1) (t := (beginTransfer .write c cmd).2) hs rfl rfl rfl
  obtain ⟨hp, hst⟩ := h
  exact ⟨⟨hp.transferOk, hp.position, hp.address, hp.anyWrites, hp.ram, hp.mounted, hp.routing, hp.images,
    hp.sound, hp.written, hp.others⟩, hst⟩

/-- After a full loop the sync decides; after a partial one it is not attempted. -/
lemma syncTransfer_spec (io : Io) {c : Card σ} {t : Transfer}
    (hm : t.transferOk = true → t.anyStorageWrites = true ∧
      storageIsMounted reg c.storage t.target = true) :
    let s := syncTransfer reg io c t
    s.1.ram = c.ram ∧ s.1.storage.targetBackend = c.storage.targetBackend ∧
      M.Kept c.storage.media s.1.storage.media ∧
      (t.transferOk = true → s.1.storage = (storageSync reg io c.storage t.target).1) ∧
      s.2.localDmaAddr = t.localDmaAddr ∧
      s.2.transferOk = (t.transferOk && (storageSync reg io c.storage t.target).2) := by
  obtain ⟨hroute, hkept⟩ := storageSync_kept M io c.storage t.target
  cases hok : t.transferOk with
  | false => simp [syncTransfer, hok, ImageTable.Kept.refl]
  | true =>
    obtain ⟨hany, hmount⟩ := hm hok
    rcases hs : storageSync reg io c.storage t.target with ⟨st, ok⟩
    rw [hs] at hroute hkept
    simp only at hroute hkept
    cases ok <;> simp [syncTransfer, hok, hany, hmount, hs, hroute, hkept]

/-- The command on any view of the media, from a sound state. -/
theorem handleWriteSectors_done (env : TransferEnv Io) {c : Card σ} (hs : M.Sound c.storage.media)
    (cmd : List Byte) :
    let n := cdbBlocks cmd
    let run := writeRun reg env c.ram c.dma.dmaAddress.full c.target (cdbLba cmd) n 0 c.storage
    let sync := storageSync reg (env.sector n).storage run.2 c.target
    let c' := handleWriteSectors reg env c cmd
    (c.dma.resetRequested = false → (∀ j, env.resetSeen j = false) →
        run.1 ≤ n ∧ WriteSixDone M c c' cmd run.1 sync) ∧
      ((c.dma.resetRequested = true ∨ ∃ j ≤ min (run.1 + 1) n, env.resetSeen j = true) →
        TransferAbandoned c c') := by
  intro n run sync c'
  obtain ⟨hp, hrun⟩ := writeLoop_end M env hs cmd
  set e := loopEnd reg .write env c cmd with he
  have hkn : run.1 ≤ n := writeRun_le _ _ _ _ _ _ _ _
  have hpos : 0 < n := cdbBlocks_pos cmd
  have hok : e.2.transferOk = decide (run.1 = n) := hp.transferOk
  have hlast : e.2.lastBoundary = if run.1 = n then n else run.1 + 1 := by
    have hi : e.2.i = 0 + run.1 := hp.position.1
    rw [Transfer.lastBoundary, hok, hi, Nat.zero_add]
    by_cases hfull : run.1 = n <;> simp [hfull]
  have hlocal : (beginTransfer .write c cmd).2.localDmaAddr = c.dma.dmaAddress.full % ramSize := rfl
  have hfirst : (beginTransfer .write c cmd).2.sector + (beginTransfer .write c cmd).2.i =
      cdbLba cmd := Nat.add_zero _
  have hany : e.2.anyStorageWrites = (false || decide (0 < run.1)) := hp.anyWrites
  have hstore : e.1.storage = run.2 := hrun
  have htarget : e.2.target = c.target := hp.position.2.2.2.2
  have haddr : e.2.localDmaAddr = (c.dma.dmaAddress.full + 512 * run.1) % ramSize := by
    rw [hp.address, hlocal, Nat.mod_add_mod]
  constructor
  · intro hreset henv
    have hm : e.2.transferOk = true → e.2.anyStorageWrites = true ∧
        storageIsMounted reg e.1.storage e.2.target = true := by
      intro h
      have hk : run.1 = n := by simpa [hok] using h
      rw [htarget]
      exact ⟨by rw [hany, hk]; simpa using hpos, hp.mounted hpos hk⟩
    obtain ⟨hsram, hsroute, hskept, hsran, hslocal, hsok⟩ :=
      syncTransfer_spec M (env.sector e.2.lastBoundary).storage hm
    set s := syncTransfer reg (env.sector e.2.lastBoundary).storage e.1 e.2 with hsdef
    have hc' : c' = completeTransfer s.1 s.2 := by
      have hdir : e.2.dir = .write := hp.position.2.2.2.1
      simp only [c', handleWriteSectors, handleSectors_completes _ _ _ _ _ hreset henv, ← he,
        finishTransfer, hdir, ← hsdef]
    have hdecide : s.2.transferOk = (decide (run.1 = n) && sync.2) := by
      rw [hsok, hok, hlast, htarget, hstore]
      by_cases hfull : run.1 = n <;> simp [hfull, sync]
    obtain ⟨hram, hst, hfull, hcells, hentered⟩ :=
      completeTransfer_spec s.1 (t := s.2) (by rw [hslocal, haddr]; exact Nat.mod_lt _ (by decide))
    rw [← hc'] at hram hst hfull hcells hentered
    have hstatus : c'.dma.status =
        if run.1 = n ∧ sync.2 = true then sasiStatusGood else sasiStatusCheckCondition := by
      rw [hentered.status, Transfer.statusByte, hdecide]
      simp
    rw [← hst] at hskept hsroute
    have himages : M.behind c'.storage = M.behind c.storage := by
      have hsync : M.behind c'.storage = M.behind e.1.storage := by
        funext target
        unfold ImageTable.behind
        rw [hsroute, hskept.image]
      exact hsync.trans hp.images
    refine ⟨hkn, ?_, ?_, ?_, ?_, ?_, himages, ?_, ?_, ?_, ?_⟩
    · rw [hstatus]
      split <;> simp_all [n]
    · intro hne
      rw [hstatus, if_neg hne]
    · intro hk
      have hfull' : run.1 = n := hk
      rw [hst, hsran (by simp [hok, hfull']), htarget, hstore, hlast, if_pos hfull']
    · rw [hentered.status]
      exact hentered
    · intro j hj
      have hw := hp.written j hj
      rw [hfirst, hlocal] at hw
      rw [hskept.sector hsroute, show c.target = (beginTransfer .write c cmd).2.target from rfl, hw,
        ← ramSector_mod, Nat.mod_add_mod, ramSector_mod]
    · intro i lba hne
      rw [hskept.disk, hp.others i lba]
      intro j hj hjn heq
      rw [hfirst] at heq
      simp only [Prod.mk.injEq] at heq
      exact hne heq.1 j (le_min hj (Nat.le_sub_one_of_lt hjn)) heq.2
    · rw [hram, hsram, hp.ram]
    · rw [hfull, hslocal, haddr]
    · rw [hcells, hslocal, haddr]
  · rintro (hreset | ⟨j, hj, hseen⟩)
    · exact handleSectors_abandoned reg .write env c cmd (.inl hreset)
    · refine handleSectors_abandoned reg .write env c cmd (.inr ⟨j, ?_, hseen⟩)
      rw [← he, hlast]
      split <;> omega

/-- WRITE(6) end to end on the card: the leading good sectors reach the image behind the target, the
sync decides with them on the status, and no other sector of that image or of another one changes. -/
theorem handleWriteSectors_endToEnd (env : TransferEnv StorageIo) (c : Card Media)
    (hnamed : c.storage.media.sd.Named) (cmd : List Byte) :
    let n := cdbBlocks cmd
    let run := writeRun cardRegistry env c.ram c.dma.dmaAddress.full c.target (cdbLba cmd) n 0 c.storage
    let sync := storageSync cardRegistry (env.sector n).storage run.2 c.target
    let c' := handleWriteSectors cardRegistry env c cmd
    (c.dma.resetRequested = false → (∀ j, env.resetSeen j = false) →
        run.1 ≤ n ∧ WriteSixDone cardView c c' cmd run.1 sync) ∧
      ((c.dma.resetRequested = true ∨ ∃ j ≤ min (run.1 + 1) n, env.resetSeen j = true) →
        TransferAbandoned c c') :=
  handleWriteSectors_done cardView env hnamed cmd

/-- Everything succeeds, on images of eight sectors. -/
def roomyIo : CallIo :=
  ⟨⟨{ readySd with open1 := (.ok, 4096) }, readyFuji⟩, ⟨{ readySd with open1 := (.ok, 4096) }, readyFuji⟩⟩

/-- Target 0 of the SD card holds an image. -/
def sdMounted : Routing Media :=
  callsFrom emptyCard [(.init .sdcard, roomyIo), (.mountOn .sdcard 0 [97] false, roomyIo)]

lemma sdMounted_named : sdMounted.media.sd.Named := by
  refine callsFrom_named ?_ (powerUp_named _ _ _)
  simp [Call.Short, conopNameMax]

/-- The write of the third sector fails and leaves it torn. -/
def tornThird (resetSeen : ℕ → Bool) : TransferEnv StorageIo :=
  ⟨fun j => ⟨⟨{ readySd with write := fun _ => if j = 2 then (.diskErr, 0, fun _ => 9) else (.ok, 512, fun _ => 0) },
    readyFuji⟩, fun _ => .ok⟩, resetSeen⟩

/-- Of four sectors two are written; the same command under a RESET. -/
theorem handleWriteSectors_endToEnd_torn :
    let c := Card.initial (fun a => BitVec.ofNat 8 a) sdMounted
    let run := writeRun cardRegistry (tornThird fun _ => false) c.ram 0 0 3 4 0 c.storage
    WriteSixDone cardView c (handleWriteSectors cardRegistry (tornThird fun _ => false) c [10, 0, 0, 3, 4, 0])
        [10, 0, 0, 3, 4, 0] 2 (storageSync cardRegistry readyIo.op run.2 0) ∧
      TransferAbandoned c (handleWriteSectors cardRegistry (tornThird fun j => j == 2) c [10, 0, 0, 3, 4, 0]) := by
  refine ⟨?_, ?_⟩
  · exact ((handleWriteSectors_endToEnd (tornThird fun _ => false) (.initial (fun a => BitVec.ofNat 8 a) sdMounted)
      sdMounted_named [10, 0, 0, 3, 4, 0]).1 rfl (fun _ => rfl)).2
  · exact (handleWriteSectors_endToEnd (tornThird fun j => j == 2) (.initial (fun a => BitVec.ofNat 8 a) sdMounted)
      sdMounted_named [10, 0, 0, 3, 4, 0]).2 (.inr ⟨2, by decide, rfl⟩)

/-- Two targets of the FujiNet serve one image. -/
def sharedImage : Routing Media :=
  callsFrom emptyCard [(.init .fujinet, readyIo), (.mountOn .fujinet 0 [98] false, readyIo),
    (.mountOn .fujinet 1 [98] false, readyIo)]

/-- A card with an image whose name has 70 characters, and one under the first 63 of them. -/
def longNamed : Routing Media :=
  callsFrom (powerUp (fun path _ _ => if path.length = 70 then 1 else 2) (fun _ => ⟨none, none⟩) fun _ _ _ => 0)
    [(.init .sdcard, readyIo), (.mountOn .sdcard 0 (List.replicate 70 0x61) false, readyIo)]

/-- The first three attempts of every access fail. -/
def failingIo : StorageIo := ⟨{ readySd with seek := fun a => if a < 3 then .diskErr else .ok }, readyFuji⟩

/-- Four reads have failed. -/
def longNamedFailing : Routing Media :=
  (List.range 4).foldl (fun st _ => (storageReadSector cardRegistry failingIo st 0 0).1) longNamed

/-- The DMA engine answers at once. -/
def promptDma (io : StorageIo) : TransferEnv StorageIo := ⟨fun _ => ⟨io, fun _ => .ok⟩, fun _ => false⟩

/-- The first byte of a sector, as the backend delivers it. -/
def firstByte (st : Routing Media) (target lba : ℕ) : Option Byte :=
  (storageReadSector cardRegistry readyIo.op st target lba).2.map fun data => data 0

/-- A WRITE(6) to target 0 that ends in GOOD changes a sector of target 1 if both serve one image. And the
fifth error in a row makes a target go on with the image its record names, so that a sector changes which
the command has not written. -/
theorem handleWriteSectors_reaches :
    (let c := Card.initial (fun _ => 7) sharedImage
     let c' := handleWriteSectors cardRegistry (promptDma readyIo.op) c [10, 0, 0, 1, 1, 0]
     c'.dma.status = sasiStatusGood ∧ firstByte c.storage 1 1 = some 0 ∧ firstByte c'.storage 1 1 = some 7) ∧
    (let c := Card.initial (fun _ => 7) longNamedFailing
     let c' := handleWriteSectors cardRegistry (promptDma failingIo) c [10, 0, 0, 0, 1, 0]
     c'.dma.status = sasiStatusGood ∧ firstByte c.storage 0 1 = some 1 ∧ firstByte c'.storage 0 1 = some 2) :=
  ⟨⟨rfl, rfl, by decide +kernel⟩, rfl, rfl, by decide +kernel⟩

end PicoV9k.Sasi
