import PicoV9k.DiskDrive
import PicoV9k.BusFree
import PicoV9k.AddressAdvance

/-!
# The card is a disk drive

Core 1 with its queue, phases and retries, under any host, simulates the drive: each
step of the handler, the worker, the console and the 8088 is a trace of the drive
from the card's view to the card's view, and logs what that trace shows.
-/
namespace PicoV9k.Sasi
open PicoV9k.Bus PicoV9k.Storage PicoV9k.Mgmt PicoV9k.Runs

variable {Io σ : Type} {n : ℕ}

inductive HostLabel (Io σ : Type)
  | bus (label : BusLabel Io σ)
  | poke (address : ℕ) (value : Byte)

/-- The 8088 stores a byte; it may do so between any two moments of the card. -/
def Bridge.poke (b : Bridge σ n) (address : ℕ) (value : Byte) : Bridge σ n :=
  { b with card := { b.card with ram := Function.update b.card.ram (address % ramSize) value } }

def Bridge.hostStep (reg : Registry Io σ) (b : Bridge σ n) : HostLabel Io σ → Option (Bridge σ n)
  | .bus label => b.step reg label
  | .poke address value => some (b.poke address value)

def Transfer.job (t : Transfer) : Job :=
  ⟨t.dir, t.target, t.sector, t.blocks, t.i, t.localDmaAddr, !t.transferOk⟩

variable {reg : Registry Io σ} (M : WritableView reg)

def Card.drive (c : Card σ) (t : Option Transfer) : Drive M.Image :=
  ⟨c.ram, M.behind c.storage, M.disk c.storage.media, t.map Transfer.job⟩

def Bridge.drive (b : Bridge σ n) : Drive M.Image := b.card.drive M b.transfer

def Card.effects (c : Card σ) : List Effect := c.history.log.map (·.effect)

/-- A transfer under way is for the selected target, inside the memory and within its blocks. -/
structure Transfer.Fits (c : Card σ) (t : Transfer) : Prop where
  target : t.target = c.target
  address : t.localDmaAddr < ramSize
  position : t.i ≤ t.blocks

def Bridge.Fits (b : Bridge σ n) : Prop := ∀ t ∈ b.transfer, t.Fits b.card

/-- From one moment of the worker to another: the drive takes a trace, the log shows it, and the media
stay sound. -/
def Matched (c : Card σ) (t : Option Transfer) (c' : Card σ) (t' : Option Transfer) : Prop :=
  ∃ es, Trace Drive.Step (c.drive M t) es (c'.drive M t') ∧
    c'.effects = c.effects ++ es.flatMap DriveEvent.logged ∧
    (M.Sound c.storage.media → M.Sound c'.storage.media)

/-- Memory, storage and log are what they were. -/
structure SameWorld (c c' : Card σ) : Prop where
  ram : c'.ram = c.ram
  storage : c'.storage = c.storage
  log : c'.history.log = c.history.log

variable {M}

lemma SameWorld.refl (c : Card σ) : SameWorld c c := ⟨rfl, rfl, rfl⟩

lemma SameWorld.trans {a b c : Card σ} (h : SameWorld a b) (g : SameWorld b c) : SameWorld a c :=
  ⟨g.ram.trans h.ram, g.storage.trans h.storage, g.log.trans h.log⟩

lemma SameWorld.drive {c c' : Card σ} (h : SameWorld c c') (t : Option Transfer) :
    c'.drive M t = c.drive M t := by
  unfold Card.drive
  rw [h.ram, h.storage]

lemma SameWorld.effects {c c' : Card σ} (h : SameWorld c c') : c'.effects = c.effects := by
  unfold Card.effects
  rw [h.log]

lemma Matched.refl (c : Card σ) (t : Option Transfer) : Matched M c t c t := ⟨[], .nil _, by simp, id⟩

lemma Matched.trans {a b c : Card σ} {s t u : Option Transfer} (h : Matched M a s b t)
    (g : Matched M b t c u) : Matched M a s c u := by
  obtain ⟨es, hes, hlog, hsound⟩ := h
  obtain ⟨fs, hfs, hlog', hsound'⟩ := g
  refine ⟨es ++ fs, hes.append hfs, ?_, fun hs => hsound' (hsound hs)⟩
  rw [hlog', hlog, List.flatMap_append, List.append_assoc]

lemma Matched.single {c c' : Card σ} {t t' : Option Transfer} {e : DriveEvent}
    (h : Drive.Step (c.drive M t) e (c'.drive M t')) (hlog : c'.effects = c.effects ++ e.logged)
    (hsound : M.Sound c.storage.media → M.Sound c'.storage.media) : Matched M c t c' t' :=
  ⟨[e], .single h, by simpa using hlog, hsound⟩

/-- One event of the drive. -/
def Moment (M : WritableView reg) (c : Card σ) (t : Option Transfer) (c' : Card σ) (t' : Option Transfer) :
    Prop :=
  ∃ e, Drive.Step (c.drive M t) e (c'.drive M t') ∧ c'.effects = c.effects ++ e.logged ∧
    M.Sound c'.storage.media

lemma Moment.matched {c c' : Card σ} {t t' : Option Transfer} (h : Moment M c t c' t') :
    Matched M c t c' t' := by
  obtain ⟨e, hs, hlog, hsound⟩ := h
  exact .single hs hlog fun _ => hsound

lemma SameWorld.matched {c c' : Card σ} (h : SameWorld c c') (t : Option Transfer) :
    Matched M c t c' t :=
  ⟨[], h.drive (M := M) t ▸ .nil _, by simp [h.effects], fun hs => h.storage ▸ hs⟩

lemma record_effects (c : Card σ) (e : Effect) : (c.record e).effects = c.effects ++ [e] := by
  simp [Card.effects, Card.record]

/-- The handler writes registers, cells and its own notes; `f` reads none of them. -/
lemma isr_frame {α : Type*} {f : Card σ → α} (hf : ∀ (c : Card σ) (dma : Registers) (cache : CachedRegs)
    (resetAt : ℕ), f { c with dma := dma, cache := cache,
                              history := { c.history with resetAt := resetAt } } = f c)
    (b : Bridge σ n) (event : FifoEvent) : f (b.isr event).1.card = f b.card := by
  have hframe {c : Card σ} (h : ∃ dma cache resetAt, c =
      { b.card with dma := dma, cache := cache,
                    history := { b.card.history with resetAt := resetAt } }) : f c = f b.card := by
    obtain ⟨dma, cache, resetAt, rfl⟩ := h
    exact hf _ _ _ _
  cases event with
  | prefetch target => cases target <;> exact hframe ⟨_, _, _, rfl⟩
  | readCommit target =>
    cases target with
    | data =>
      rw [isr_commit_data, enqueue_card]
      exact hframe ⟨_, _, _, rfl⟩
    | _ => exact hframe ⟨_, _, _, rfl⟩
  | write target data =>
    cases target with
    | control =>
      by_cases hr : hasBit data dmaResetBit = true
      · rw [isr_write_reset b hr, enqueue_card]
        exact hframe ⟨_, _, _, rfl⟩
      · rw [isr_write_control b (Bool.eq_false_iff.mpr hr), enqueue_card]
        exact hframe ⟨_, _, _, rfl⟩
    | data =>
      rw [isr_write_data, enqueue_card]
      exact hframe ⟨_, _, _, rfl⟩
    | status | statusAlias =>
      refine (congrArg f (enqueue_card ((Bridge.tick b).writeThrough _ data) _)).trans ?_
      exact hframe ⟨_, _, _, rfl⟩
    | _ => exact hframe ⟨_, _, _, rfl⟩
  | unknown => exact hframe ⟨_, _, _, rfl⟩

lemma isr_world (b : Bridge σ n) (event : FifoEvent) : SameWorld b.card (b.isr event).1.card :=
  ⟨isr_frame (f := fun c => c.ram) (fun _ _ _ _ => rfl) b event,
    isr_frame (f := fun c => c.storage) (fun _ _ _ _ => rfl) b event, isr_log b event⟩

/-- The selected target belongs to the worker. -/
lemma isr_target (b : Bridge σ n) (event : FifoEvent) : (b.isr event).1.card.target = b.card.target := by
  have h := congrArg Controller.selectedTarget (isr_controller b event)
  exact congrArg (fun s : Byte => (s &&& 0x07).toNat) h

/-- The phase and register helpers, and everything built of them. -/
lemma sasiEnterStatusPhase_matched (M : WritableView reg) {c c' : Card σ} {t : Option Transfer} {b : Byte}
    (h : SameWorld c c') (hb : b = sasiStatusGood ∨ b = sasiStatusCheckCondition)
    (ht : ∀ j ∈ t.map Transfer.job, j.Answers b) : Matched M c t (sasiEnterStatusPhase c' b) none := by
  refine (h.matched t).trans (.single (e := .answer b) ?_ (record_effects c' (.status b)) id)
  exact .answer ht hb

lemma completes_matched (M : WritableView reg) {c c' : Card σ} {b : Byte} (h : SameWorld c c')
    (hb : b = sasiStatusGood ∨ b = sasiStatusCheckCondition) :
    Matched M c none (sasiEnterStatusPhase c' b) none :=
  sasiEnterStatusPhase_matched M h hb fun j hj => by cases hj

lemma fetchParameters_matched (M : WritableView reg) (io : SectorIo Io) {c c' : Card σ} (len : ℕ)
    (h : SameWorld c c') : Matched M c none (fetchParameters io c' len) none := by
  unfold fetchParameters
  dsimp only
  split
  · exact completes_matched M h (.inr rfl)
  · exact completes_matched M (h.trans ⟨rfl, rfl, rfl⟩) (.inl rfl)

lemma handleModeSelect_matched (M : WritableView reg) (io : SectorIo Io) (c : Card σ) (cmd : List Byte) :
    Matched M c none (handleModeSelect io c cmd) none := by
  unfold handleModeSelect
  dsimp only
  split
  · exact completes_matched M (.refl c) (.inl rfl)
  · exact fetchParameters_matched M io _ ⟨rfl, rfl, rfl⟩

lemma handleDriveParams_matched (M : WritableView reg) (io : SectorIo Io) (c : Card σ) :
    Matched M c none (handleDriveParams io c) none := by
  unfold handleDriveParams
  split
  · exact fetchParameters_matched M io _ ⟨rfl, rfl, rfl⟩
  · exact SameWorld.matched ⟨rfl, rfl, rfl⟩ none

lemma senseSize_le (cmd : List Byte) : senseSize cmd ≤ 4 := by
  unfold senseSize
  split
  · exact le_rfl
  · exact min_le_right _ _

/-- Sense data, or what a failed DMA call left of them, arrive in memory. -/
lemma sense_matched (M : WritableView reg) (c : Card σ) {address size : ℕ} (ok : Bool) (ram : ℕ → Byte)
    (hsize : size ≤ 4) (hout : ∀ a, ¬ Wrap.InWindow ramSize address size a → ram a = c.ram a)
    (hzero : ok = true → ∀ i < size, ram ((address + i) % ramSize) = 0) :
    Matched M c none { c with ram := ram } none :=
  .single (e := .sense address size ok) (.sense _ _ _ rfl hsize hout hzero)
    (by simp [Card.effects, DriveEvent.logged]) id

lemma handleRequestSense_matched (M : WritableView reg) (io : SectorIo Io) (c : Card σ) (cmd : List Byte) :
    Matched M c none (handleRequestSense io c cmd) none := by
  have hsize := senseSize_le cmd
  have hsmall {i : ℕ} (hi : i < senseSize cmd) : i < ramSize := by
    simp only [ramSize]
    omega
  unfold handleRequestSense
  dsimp only
  cases io.dma 0 with
  | failed junk =>
    refine (sense_matched M c false (Wrap.write ramSize c.ram (c.dma.dmaAddress.full % ramSize)
      (senseSize cmd) junk) hsize (fun a ha => Wrap.write_outside ha) ?_).trans
      (completes_matched M ⟨rfl, rfl, rfl⟩ (.inr rfl))
    intro h
    cases h
  | ok =>
    refine (sense_matched M c true (Wrap.write ramSize c.ram (c.dma.dmaAddress.full % ramSize)
      (senseSize cmd) fun _ => 0) hsize (fun a ha => Wrap.write_outside ha) ?_).trans
      (completes_matched M ⟨rfl, rfl, rfl⟩ (.inl rfl))
    intro _ i hi
    exact Wrap.write_inside hi (hsmall hi)

/-- A command without sectors leaves no transfer behind. -/
lemma command_matched (M : WritableView reg) (c : Card σ) (cmd : List Byte) {t : Option Transfer}
    {c' : Card σ} (hw : SameWorld (c.recordRouted cmd) c')
    (hjob : Job.ofCommand c.dma.selectedTarget c.dma.dmaAddress.full cmd = t.map Transfer.job) :
    Matched M c none c' t := by
  refine Matched.trans (b := c.recordRouted cmd) (t := t) ?_ (hw.matched t)
  refine .single (e := .command c.dma.selectedTarget c.dma.dmaAddress.full cmd) ?_ (record_effects c _) id
  have hstep := Drive.Step.command (d := c.drive M none) c.dma.selectedTarget c.dma.dmaAddress.full cmd rfl
  rwa [hjob] at hstep

lemma routeToSasiTarget_matched (M : WritableView reg) (io : SectorIo Io) (c : Card σ) (cmd : List Byte) :
    Matched M c none (routeToSasiTarget io c cmd).1 (routeToSasiTarget io c cmd).2 := by
  have hplain {c' : Card σ} (hop : Job.ofCommand c.dma.selectedTarget c.dma.dmaAddress.full cmd = none)
      (h : Matched M (c.recordRouted cmd) none c' none) : Matched M c none c' none :=
    (command_matched M c cmd (t := none) (.refl _) hop).trans h
  unfold routeToSasiTarget
  dsimp only
  cases hop : Opcode.ofByte (cdbByte cmd 0) with
  | testUnitReady | diagnostic | unknown =>
    exact hplain (by simp [Job.ofCommand, hop]) (completes_matched M (.refl _) (.inl rfl))
  | readSix | writeSix =>
    exact command_matched M c cmd ⟨rfl, rfl, rfl⟩ (by simp [Job.ofCommand, hop]; rfl)
  | requestSense =>
    exact hplain (by simp [Job.ofCommand, hop]) (handleRequestSense_matched M io _ cmd)
  | driveParams => exact hplain (by simp [Job.ofCommand, hop]) (handleDriveParams_matched M io _)
  | modeSelect => exact hplain (by simp [Job.ofCommand, hop]) (handleModeSelect_matched M io _ cmd)

lemma acceptDataByte_world (c : Card σ) (data : Byte) : SameWorld c (acceptDataByte c data) := by
  unfold acceptDataByte
  dsimp only
  split <;> split <;> exact ⟨rfl, rfl, rfl⟩

lemma handleSasiCommandByte_matched (M : WritableView reg) (io : SectorIo Io) (c : Card σ) (seenAt : ℕ)
    (data : Byte) : Matched M c none (handleSasiCommandByte io c seenAt data).1
      (handleSasiCommandByte io c seenAt data).2 := by
  unfold handleSasiCommandByte
  dsimp only
  split
  · have hworld : SameWorld c (completedCdb c seenAt data) := ⟨rfl, rfl, rfl⟩
    have hroute := (hworld.matched (M := M) none).trans (routeToSasiTarget_matched M io _ (c.cmdBuffer ++ [data]))
    split
    next d hd =>
      rw [show routeToSasiTarget io (completedCdb c seenAt data) (c.cmdBuffer ++ [data]) = (d, none)
        from hd] at hroute
      exact hroute.trans (SameWorld.matched ⟨rfl, rfl, rfl⟩ none)
    next d t hd =>
      rw [show routeToSasiTarget io (completedCdb c seenAt data) (c.cmdBuffer ++ [data]) = (d, some t)
        from hd] at hroute
      exact hroute
  · exact SameWorld.matched ⟨rfl, rfl, rfl⟩ none

lemma handleSasiDataOutByte_matched (M : WritableView reg) (c : Card σ) (data : Byte) :
    Matched M c none (handleSasiDataOutByte c data) none := by
  unfold handleSasiDataOutByte
  dsimp only
  split
  · exact .refl c none
  · split
    · exact SameWorld.matched ⟨rfl, rfl, rfl⟩ none
    · exact completes_matched M ⟨rfl, rfl, rfl⟩ (.inl rfl)

lemma deferProcessData_matched (M : WritableView reg) (io : SectorIo Io) (c : Card σ) (seenAt : ℕ)
    (data : Byte) : Matched M c none (deferProcessData io c seenAt data).1
      (deferProcessData io c seenAt data).2 := by
  refine ((acceptDataByte_world c data).matched none).trans ?_
  unfold deferProcessData
  dsimp only
  split
  · exact handleSasiCommandByte_matched M io _ seenAt data
  · split
    · exact handleSasiDataOutByte_matched M _ data
    · exact .refl _ none

lemma deferProcessRead_world (c : Card σ) (target : Reg) : SameWorld c (deferProcessRead c target) := by
  unfold deferProcessRead
  cases target with
  | data =>
    dsimp only
    split
    · exact ⟨rfl, rfl, rfl⟩
    · split
      · split <;> exact ⟨rfl, rfl, rfl⟩
      · split <;> exact ⟨rfl, rfl, rfl⟩
  | _ => exact ⟨rfl, rfl, rfl⟩

lemma deferProcessControl_world (c : Card σ) (data : Byte) : SameWorld c (deferProcessControl c data) := by
  unfold deferProcessControl
  dsimp only
  split
  · exact ⟨rfl, rfl, rfl⟩
  · split
    · exact ⟨rfl, rfl, rfl⟩
    · split <;> exact ⟨rfl, rfl, rfl⟩

/-- One queue entry, whatever it is and whatever state the worker meets it in. -/
theorem deferProcessEntry_matched (M : WritableView reg) (io : SectorIo Io) (c : Card σ) (e : Entry) :
    Matched M c none (deferProcessEntry io c e).1 (deferProcessEntry io c e).2 := by
  obtain ⟨event, seenAt⟩ := e
  cases event with
  | readCommit target => exact (deferProcessRead_world c target).matched none
  | write target data =>
    cases target with
    | control => exact (deferProcessControl_world c data).matched none
    | data => exact deferProcessData_matched M io c seenAt data
    | _ => exact SameWorld.matched ⟨rfl, rfl, rfl⟩ none
  | _ => exact .refl c none

lemma advanceSector_effects (c : Card σ) (t : Transfer) : (advanceSector c t).1.effects = c.effects := by
  unfold advanceSector
  dsimp only
  split <;> rfl

/-- Either way a sector step notes the block it is about. -/
lemma readSectorStep_effects (reg : Registry Io σ) (io : SectorIo Io) (c : Card σ) (t : Transfer) :
    (readSectorStep reg io c t).1.effects = c.effects ++ [.sector (t.sector + t.i)] := by
  rw [← record_effects]
  unfold readSectorStep
  dsimp only
  split
  · rfl
  · split
    · rfl
    · exact advanceSector_effects _ _

lemma writeSectorStep_effects (reg : Registry Io σ) (io : SectorIo Io) (c : Card σ) (t : Transfer) :
    (writeSectorStep reg io c t).1.effects = c.effects ++ [.sector (t.sector + t.i)] := by
  rw [← record_effects]
  unfold writeSectorStep
  dsimp only
  split
  · rfl
  · split
    · split
      · rfl
      · exact advanceSector_effects _ _
    · rfl

lemma map_job {t u : Transfer} (h : t = u) : (some t).map Transfer.job = some u.job :=
  congrArg (some ∘ Transfer.job) h

lemma drive_eq {c c' : Card σ} {t : Option Transfer} {memory : ℕ → Byte} {disks : M.Image → ℕ → Sector}
    {job : Option Job} (hram : c'.ram = memory) (hholds : M.behind c'.storage = M.behind c.storage)
    (hdisks : M.disk c'.storage.media = disks) (hjob : t.map Transfer.job = job) :
    c'.drive M t = ⟨memory, M.behind c.storage, disks, job⟩ := by
  rw [← hram, ← hdisks, ← hjob, ← hholds]
  rfl

/-- Storage whose routing and images are unchanged shows the same drive. -/
lemma kept_behind {M : WritableView reg} {st st' : Routing σ} (hroute : st'.targetBackend = st.targetBackend)
    (hkept : M.Kept st.media st'.media) : M.behind st' = M.behind st := by
  funext target
  unfold ImageTable.behind
  rw [hroute, hkept.image]

lemma readSectorStep_moment (M : WritableView reg) {io : SectorIo Io} {c : Card σ} {t : Transfer}
    (hf : t.Fits c) (hdir : t.dir = .read) (hopen : t.job.Open) (hio : M.Honest io.storage)
    (hs : M.Sound c.storage.media) :
    Moment M c (some t) (readSectorStep reg io c t).1 (some (readSectorStep reg io c t).2) := by
  have heffects := readSectorStep_effects reg io c t
  obtain ⟨hst, -, hcase⟩ := readSectorStep_cases reg io c t
  obtain ⟨hroute, hkept⟩ :=
    readSectorFromDisk_kept M.toReadView io.storage c.storage c.target (t.sector + t.i)
  rw [← hst] at hroute hkept
  have hholds := kept_behind hroute hkept
  rcases hcase with ⟨-, ht, hram⟩ | ⟨data, hdata, hram, ht⟩
  · refine ⟨.missed t.job.block t.job.address, ?_, heffects, hkept.sound hs⟩
    rw [drive_eq hram hholds hkept.disk (map_job ht)]
    exact .missed rfl hdir hopen fun _ _ => rfl
  · obtain ⟨-, hout, hin⟩ :=
      dmaWriteRetry_spec io.dma t.localDmaAddr (sectorBytes data) le_rfl c.ram
    rw [← hram] at hout hin
    cases hans : dmaAnswers io.dma with
    | false =>
      refine ⟨.missed t.job.block t.job.address, ?_, heffects, hkept.sound hs⟩
      rw [hans, if_neg (by decide)] at ht
      rw [drive_eq rfl hholds hkept.disk (map_job ht)]
      exact .missed rfl hdir hopen hout
    | true =>
      rw [hans, if_pos rfl] at ht
      have hok := dmaWriteRetry_ok io.dma t.localDmaAddr (sectorBytes data) c.ram
      have hblock : data = (c.drive M (some t)).blockOf t.job :=
        (readSectorFromDisk_data hio hs hdata).trans (by rw [← hf.target]; rfl)
      have hmem := Wrap.eq_write (hin (hok.trans hans)) hout
      refine ⟨.deliver t.job.target t.job.block t.job.address
        ((c.drive M (some t)).blockOf t.job), ?_, heffects, hkept.sound hs⟩
      rw [drive_eq hmem hholds hkept.disk (map_job ht), hblock]
      exact .deliver rfl hdir hopen

lemma writeSectorStep_moment (M : WritableView reg) (io : SectorIo Io) {c : Card σ} {t : Transfer}
    (hdir : t.dir = .write) (hopen : t.job.Open) (hs : M.Sound c.storage.media) :
    Moment M c (some t) (writeSectorStep reg io c t).1 (some (writeSectorStep reg io c t).2) := by
  have heffects := writeSectorStep_effects reg io c t
  obtain ⟨hram, hcase⟩ := writeSectorStep_cases reg io c t
  have hstored := storageWriteSector_stored M io.storage c.storage t.target (t.sector + t.i)
    (ramSector c.ram t.localDmaAddr) hs
  have hroute := storageWriteSector_routing reg io.storage c.storage t.target (t.sector + t.i)
    (ramSector c.ram t.localDmaAddr)
  rcases hcase with ⟨-, hst, ht⟩ | ⟨-, hst, ht⟩
  · refine ⟨.torn t.job.target t.job.block, ?_, heffects, by rwa [hst]⟩
    rw [drive_eq hram (congrArg M.behind hst) (congrArg (fun st => M.disk st.media) hst) (map_job ht)]
    exact .torn rfl hdir hopen fun _ _ _ => rfl
  · rw [← hst] at hstored hroute
    have hholds := hstored.behind hroute
    cases hok : (storageWriteSector reg io.storage c.storage t.target (t.sector + t.i)
        (ramSector c.ram t.localDmaAddr)).2 with
    | false =>
      refine ⟨.torn t.job.target t.job.block, ?_, heffects, hstored.sound⟩
      rw [hok, if_neg (by decide)] at ht
      rw [drive_eq hram hholds rfl (map_job ht)]
      exact .torn rfl hdir hopen hstored.others
    | true =>
      rw [hok, if_pos rfl] at ht
      refine ⟨.store t.job.target t.job.block t.job.address
        (ramSector c.ram t.job.address), ?_, heffects, hstored.sound⟩
      rw [drive_eq hram hholds rfl (map_job ht)]
      exact .store rfl hdir hopen (hstored.stored hok) hstored.others

/-- The sync keeps what the images hold; it may only turn a good transfer into a failed one. -/
lemma syncTransfer_kept (M : WritableView reg) (io : Io) (c : Card σ) (t : Transfer) :
    (syncTransfer reg io c t).1.ram = c.ram ∧ (syncTransfer reg io c t).1.effects = c.effects ∧
      (syncTransfer reg io c t).1.storage.targetBackend = c.storage.targetBackend ∧
      M.Kept c.storage.media (syncTransfer reg io c t).1.storage.media ∧
      ((syncTransfer reg io c t).2 = t ∨
        t.transferOk = true ∧ (syncTransfer reg io c t).2 = { t with transferOk := false }) := by
  obtain ⟨hroute, hkept⟩ := storageSync_kept M io c.storage t.target
  unfold syncTransfer
  split
  next hsync =>
    have hok : t.transferOk = true := by
      simp only [Bool.and_eq_true] at hsync
      exact hsync.1.2
    rcases hs : storageSync reg io c.storage t.target with ⟨st, _ | _⟩ <;> rw [hs] at hroute hkept
    · exact ⟨rfl, rfl, hroute, hkept, .inr ⟨hok, rfl⟩⟩
    · exact ⟨rfl, rfl, hroute, hkept, .inl rfl⟩
  · exact ⟨rfl, rfl, rfl, .refl _, .inl rfl⟩

/-- The status byte tells whether the transfer is still good. -/
lemma statusByte_good (t : Transfer) : t.statusByte = sasiStatusGood ↔ t.transferOk = true := by
  unfold Transfer.statusByte
  split
  next h => simp [h]
  next h => simp [h, sasiStatusGood, sasiStatusCheckCondition]

lemma statusByte_known (t : Transfer) :
    t.statusByte = sasiStatusGood ∨ t.statusByte = sasiStatusCheckCondition := by
  unfold Transfer.statusByte
  split
  · exact .inl rfl
  · exact .inr rfl

lemma completeTransfer_moment {c d : Card σ} {t u : Transfer} (hram : d.ram = c.ram)
    (heffects : d.effects = c.effects) (hroute : d.storage.targetBackend = c.storage.targetBackend)
    (hkept : M.Kept c.storage.media d.storage.media) (hs : M.Sound c.storage.media)
    (ha : t.job.Answers u.statusByte) : Moment M c (some t) (completeTransfer d u) none := by
  rw [completeTransfer_eq]
  refine ⟨.answer u.statusByte, ?_, ?_, hkept.sound hs⟩
  · have hdrive : (sasiEnterStatusPhase (writeBack d u) u.statusByte).drive M none =
        ⟨c.ram, M.behind c.storage, M.disk c.storage.media, none⟩ :=
      drive_eq hram (kept_behind hroute hkept) hkept.disk rfl
    rw [hdrive]
    exact .answer (fun j hj => Option.some.inj hj ▸ ha) (statusByte_known u)
  · exact (record_effects (writeBack d u) (.status u.statusByte)).trans (congrArg (· ++ _) heffects)

/-- At the end of its loop a good transfer has moved every block. -/
lemma job_answers {c : Card σ} {t u : Transfer} (hf : t.Fits c) (hend : ¬ (t.transferOk ∧ t.i < t.blocks))
    (hu : u = t ∨ t.dir = .write ∧ t.transferOk = true ∧ u = { t with transferOk := false }) :
    t.job.Answers u.statusByte := by
  have hmoved (hok : t.transferOk = true) : t.i = t.blocks := by
    have hle := hf.position
    have hlt : ¬ t.i < t.blocks := fun h => hend ⟨hok, h⟩
    omega
  refine ⟨statusByte_known u, fun hgood => ?_, fun hcheck => ?_⟩
  · rcases hu with rfl | ⟨-, -, rfl⟩
    · have hok := (statusByte_good u).mp hgood
      exact ⟨by simp [Transfer.job, hok], hmoved hok⟩
    · cases (statusByte_good _).mp hgood
  · rcases hu with rfl | ⟨hdir, hok, -⟩
    · refine .inl ?_
      cases hok : u.transferOk with
      | false => simp [Transfer.job, hok]
      | true =>
        rw [(statusByte_good u).mpr hok] at hcheck
        cases hcheck
    · exact .inr ⟨hdir, hmoved hok⟩

/-- A transfer completes with the answer its job deserves. -/
lemma finishTransfer_moment (M : WritableView reg) (io : SectorIo Io) {c : Card σ} {t : Transfer}
    (hf : t.Fits c) (hend : ¬ (t.transferOk ∧ t.i < t.blocks)) (hs : M.Sound c.storage.media) :
    Moment M c (some t) (finishTransfer reg io c t) none := by
  unfold finishTransfer
  split
  · exact completeTransfer_moment rfl rfl rfl (.refl _) hs (job_answers hf hend (.inl rfl))
  next hdir =>
    obtain ⟨hram, heffects, hroute, hkept, hsync⟩ := syncTransfer_kept M io.storage c t
    refine completeTransfer_moment hram heffects hroute hkept hs (job_answers hf hend ?_)
    rcases hsync with h | h
    · exact .inl h
    · exact .inr ⟨hdir, h⟩

/-- A sector boundary is one event of the drive. -/
theorem transferStep_moment (M : WritableView reg) {io : SectorIo Io} {c : Card σ} {t : Transfer}
    (hf : t.Fits c) (hio : M.Honest io.storage) (hs : M.Sound c.storage.media) :
    Moment M c (some t) (transferStep reg io c t).1 (transferStep reg io c t).2 := by
  unfold transferStep
  split
  · exact ⟨.abandon, .abandon rfl, by simp [DriveEvent.logged], hs⟩
  · split
    next hopen =>
      have hjob : t.job.Open := ⟨by simp [Transfer.job, hopen.1], hopen.2⟩
      unfold sectorStep
      cases hdir : t.dir with
      | read => exact readSectorStep_moment M hf hdir hjob hio hs
      | write => exact writeSectorStep_moment M io hdir hjob hs
    next hend => exact finishTransfer_moment M io hf hend hs

lemma sectorStep_fits (io : SectorIo Io) {c : Card σ} {t : Transfer} (hf : t.Fits c)
    (hlt : t.i < t.blocks) : (sectorStep reg io c t).2.Fits (sectorStep reg io c t).1 := by
  have htarget : (sectorStep reg io c t).1.target = c.target := by
    have h := congrArg Registers.selectedTarget (sectorStep_executed reg io c t).dma
    exact congrArg (fun s : Byte => (s &&& 0x07).toNat) h
  have haddr := sectorStep_address reg io c hf.address
  rcases sectorStep_transfer reg io c t with ht | ⟨w, ht⟩
  · exact ⟨by rw [htarget, ht]; exact hf.target, haddr, by rw [ht]; exact hf.position⟩
  · exact ⟨by rw [htarget, ht]; exact hf.target, haddr, by rw [ht]; exact hlt⟩

lemma transferStep_fits (io : SectorIo Io) {c : Card σ} {t : Transfer} (hf : t.Fits c)
    (reg : Registry Io σ) :
    ∀ u ∈ (transferStep reg io c t).2, u.Fits (transferStep reg io c t).1 := by
  unfold transferStep
  split
  · exact fun u hu => by cases hu
  · split
    next hopen => exact fun u hu => Option.some.inj hu ▸ sectorStep_fits io hf hopen.2
    next hend => exact fun u hu => by cases hu

/-- A transfer that an entry starts is for the target selected then. -/
lemma deferProcessEntry_fits (io : SectorIo Io) (c : Card σ) (e : Entry) :
    ∀ t ∈ (deferProcessEntry io c e).2, t.Fits (deferProcessEntry io c e).1 := by
  have hnone (d : Card σ) : ∀ t ∈ ((d, none) : Card σ × Option Transfer).2, t.Fits d :=
    fun t ht => by cases ht
  have hroute (d : Card σ) (cmd : List Byte) :
      ∀ t ∈ (routeToSasiTarget io d cmd).2, t.Fits (routeToSasiTarget io d cmd).1 := by
    unfold routeToSasiTarget
    dsimp only
    split
    case h_3 | h_5 =>
      exact fun t ht => Option.some.inj ht ▸ ⟨rfl, Nat.mod_lt _ (by decide), Nat.zero_le _⟩
    all_goals exact fun t ht => by cases ht
  obtain ⟨event, seenAt⟩ := e
  cases event with
  | write target data =>
    cases target with
    | data =>
      unfold deferProcessEntry deferProcessWrite deferProcessData handleSasiCommandByte
      dsimp only
      split
      · split
        · have h := hroute (completedCdb (acceptDataByte c data) seenAt data)
            ((acceptDataByte c data).cmdBuffer ++ [data])
          split
          next d hd => exact fun t ht => by cases ht
          next d t hd =>
            intro u hu
            rw [show routeToSasiTarget io (completedCdb (acceptDataByte c data) seenAt data)
              ((acceptDataByte c data).cmdBuffer ++ [data]) = (d, some t) from hd] at h
            exact h u hu
        · exact hnone _
      · split
        · exact hnone _
        · exact hnone _
    | _ => exact hnone _
  | _ => exact hnone _

/-- From outside come honest answers and sound media. -/
def HostLabel.Regular (M : ReadView reg) : HostLabel Io σ → Prop
  | .bus (.worker io) => M.Honest io.storage
  | .bus (.service storage) => M.Sound storage.media
  | _ => True

lemma service_matched (M : WritableView reg) {b b' : Bridge σ n} {storage : Routing σ}
    (hsound : M.Sound storage.media) (hs : b.service storage = some b') :
    Matched M b.card b.transfer b'.card b'.transfer ∧ b'.Fits := by
  unfold Bridge.service at hs
  split at hs
  next hidle =>
    cases hs
    rw [hidle]
    refine ⟨.single (e := .exchange) (.exchange (M.behind storage) (M.disk storage.media) rfl) ?_
      fun _ => hsound, fun t ht => ?_⟩
    · simp [Card.effects, DriveEvent.logged]
    · cases ht
  · cases hs

lemma workerStep_matched (M : WritableView reg) {b b' : Bridge σ n} {io : SectorIo Io} (hf : b.Fits)
    (hio : M.Honest io.storage) (hsound : M.Sound b.card.storage.media) (hs : b.workerStep reg io = some b') :
    Matched M b.card b.transfer b'.card b'.transfer ∧ b'.Fits := by
  unfold Bridge.workerStep at hs
  split at hs
  next _ _ t ht =>
    cases hs
    have hstep := (transferStep_moment M (hf t ht) hio hsound).matched
    have hfits := transferStep_fits io (hf t ht) reg
    rw [ht]
    rcases hr : transferStep reg io b.card t with ⟨c, _ | u⟩
    · rw [hr] at hstep
      exact ⟨hstep.trans (SameWorld.matched ⟨rfl, rfl, rfl⟩ none), fun u hu => by cases hu⟩
    · rw [hr] at hstep hfits
      exact ⟨hstep, hfits⟩
  · cases hs
  next e rest ht hq =>
    cases hs
    rw [ht]
    exact ⟨deferProcessEntry_matched M io b.card e, deferProcessEntry_fits io b.card e⟩

/-- One step of the whole system is a trace of the drive. -/
theorem hostStep_matched (M : WritableView reg) {b b' : Bridge σ n} {label : HostLabel Io σ} (hf : b.Fits)
    (hlabel : label.Regular M.toReadView) (hsound : M.Sound b.card.storage.media)
    (hs : b.hostStep reg label = some b') :
    Matched M b.card b.transfer b'.card b'.transfer ∧ b'.Fits := by
  cases label with
  | poke address value =>
    cases hs
    refine ⟨.single (e := .poke address value) (.poke address value) ?_ id, fun t ht => ?_⟩
    · simp [Card.effects, DriveEvent.logged, Bridge.poke]
    · exact ⟨(hf t ht).target, (hf t ht).address, (hf t ht).position⟩
  | bus label =>
    cases label with
    | fifo event =>
      cases hs
      have hcalm := (isr_world b event).matched (M := M) b.transfer
      rw [isr_transfer]
      refine ⟨hcalm, fun t ht => ?_⟩
      rw [isr_transfer] at ht
      have h := hf t ht
      exact ⟨h.target.trans (isr_target b event).symm, h.address, h.position⟩
    | service storage => exact service_matched M hlabel hs
    | worker io => exact workerStep_matched M hf hlabel hsound hs

/-- The drive at power-up. -/
def Drive.initial (ram : ℕ → Byte) (holds : ℕ → M.Image) (disks : M.Image → ℕ → Sector) : Drive M.Image :=
  ⟨ram, holds, disks, none⟩

abbrev CardLabel := HostLabel StorageIo Media

def workerTurn : CardLabel := .bus (.worker ⟨roomyIo.op, fun _ => .ok⟩)

/-- Accesses the worker keeps up with. -/
def pacedHost (events : List FifoEvent) : List CardLabel :=
  events.flatMap fun event => [.bus (.fifo event), workerTurn]

lemma workerTurn_regular : workerTurn.Regular cardView.toReadView := fun _ _ => le_rfl

lemma pacedHost_regular {events : List FifoEvent} :
    ∀ label ∈ pacedHost events, label.Regular cardView.toReadView := by
  intro label hmem
  simp only [pacedHost, List.mem_flatMap, List.mem_cons, List.not_mem_nil, or_false] at hmem
  obtain ⟨event, -, rfl | rfl⟩ := hmem
  · trivial
  · exact workerTurn_regular

def followCard (guard : Bridge Media 2 → CardLabel → Prop) [∀ b l, Decidable (guard b l)] :
    Bridge Media 2 → List CardLabel → Option (Bridge Media 2) :=
  follow (Bridge.hostStep cardRegistry) guard

end PicoV9k.Sasi
