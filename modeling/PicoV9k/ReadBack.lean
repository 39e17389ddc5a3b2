import PicoV9k.DriveRefinement

/-!
# What was written is read back

A block that WRITE(6) took from memory is what a later READ(6) of the same image puts
there, through whatever target, and across any number of other commands, RESETs,
retries, stores of the 8088 and turns of the console that leave that block alone.
-/
namespace PicoV9k.Sasi
open PicoV9k.Bus PicoV9k.Storage PicoV9k.Mgmt PicoV9k.Runs

variable {Io σ : Type} {n : ℕ} {reg : Registry Io σ}

lemma fetchParameters_storage (io : SectorIo Io) (c : Card σ) (len : ℕ) :
    (fetchParameters io c len).storage = c.storage := by
  unfold fetchParameters
  dsimp only
  split <;> rfl

lemma routeToSasiTarget_storage (io : SectorIo Io) (c : Card σ) (cmd : List Byte) :
    (routeToSasiTarget io c cmd).1.storage = c.storage := by
  unfold routeToSasiTarget
  dsimp only
  split
  case h_4 =>
    unfold handleRequestSense
    dsimp only
    split <;> rfl
  case h_6 =>
    unfold handleDriveParams
    split
    · exact fetchParameters_storage io _ _
    · rfl
  case h_7 =>
    unfold handleModeSelect
    dsimp only
    split
    · rfl
    · exact fetchParameters_storage io _ _
  all_goals rfl

lemma deferProcessData_storage (io : SectorIo Io) (c : Card σ) (seenAt : ℕ) (data : Byte) :
    (deferProcessData io c seenAt data).1.storage = c.storage := by
  refine Eq.trans ?_ (acceptDataByte_world c data).storage
  unfold deferProcessData
  dsimp only
  split
  · unfold handleSasiCommandByte
    dsimp only
    split
    · have hroute := routeToSasiTarget_storage io (completedCdb (acceptDataByte c data) seenAt data)
        ((acceptDataByte c data).cmdBuffer ++ [data])
      split
      next d hd => exact (congrArg (·.1.storage) hd).symm.trans hroute
      next d t hd => exact (congrArg (·.1.storage) hd).symm.trans hroute
    · rfl
  · split
    · unfold handleSasiDataOutByte
      dsimp only
      split
      · rfl
      · split <;> rfl
    · rfl

lemma deferProcessEntry_storage (io : SectorIo Io) (c : Card σ) (e : Entry) :
    (deferProcessEntry io c e).1.storage = c.storage := by
  obtain ⟨event, seenAt⟩ := e
  cases event with
  | readCommit target => exact (deferProcessRead_world c target).storage
  | write target data =>
    cases target with
    | control => exact (deferProcessControl_world c data).storage
    | data => exact deferProcessData_storage io c seenAt data
    | _ => rfl
  | _ => rfl

section Spared

variable (M : WritableView reg)

/-- A WRITE(6) is about to move a block onto this one. -/
def Bridge.AtWrite (b : Bridge σ n) (i : M.Image) (lba : ℕ) : Prop :=
  ∃ t ∈ b.transfer, t.job.Open ∧ t.dir = .write ∧ (M.behind b.card.storage t.target, t.sector + t.i) = (i, lba)

/-- The step moves no block onto this one; the console may exchange images, but not write this block. -/
def Spares (i : M.Image) (lba : ℕ) (b : Bridge σ n) : HostLabel Io σ → Prop
  | .bus (.worker _) => ¬ b.AtWrite M i lba
  | .bus (.service storage) => M.disk storage.media i lba = M.disk b.card.storage.media i lba
  | .bus (.fifo _) | .poke _ _ => True

/-- A run of regular steps that spares a block. -/
abbrev SparingRun (i : M.Image) (lba : ℕ) : Bridge σ n → List (HostLabel Io σ) → Bridge σ n → Prop :=
  Guarded (Bridge.hostStep reg) fun b label => label.Regular M.toReadView ∧ Spares M i lba b label

/-- What regular steps preserve. -/
structure Bridge.Regular (b : Bridge σ n) : Prop where
  fits : b.Fits
  sound : M.Sound b.card.storage.media

variable {M} {b b' : Bridge σ n} {i : M.Image} {lba : ℕ}

lemma Bridge.Regular.step {label : HostLabel Io σ} (hb : b.Regular M) (hlabel : label.Regular M.toReadView)
    (hs : b.hostStep reg label = some b') : b'.Regular M := by
  obtain ⟨⟨es, -, -, hsound⟩, hfits⟩ := hostStep_matched M hb.fits hlabel hb.sound hs
  exact ⟨hfits, hsound hb.sound⟩

lemma workerStep_spares {io : SectorIo Io} (hb : b.Regular M) (hio : M.Honest io.storage)
    (hspare : ¬ b.AtWrite M i lba) (hs : b.workerStep reg io = some b') :
    M.disk b'.card.storage.media i lba = M.disk b.card.storage.media i lba := by
  unfold Bridge.workerStep at hs
  split at hs
  next _ _ t ht =>
    cases hs
    obtain ⟨e, hstep, -⟩ := transferStep_moment M (hb.fits t ht) hio hb.sound
    have hframe := hstep.disks_frame i lba rfl fun h => hspare ⟨t, ht, h⟩
    rcases hr : transferStep reg io b.card t with ⟨c, _ | u⟩ <;> rw [hr] at hframe <;> exact hframe
  · cases hs
  next e rest ht hq =>
    cases hs
    exact congrArg (fun st => M.disk st.media i lba) (deferProcessEntry_storage io b.card e)

lemma hostStep_spares {label : HostLabel Io σ} (hb : b.Regular M) (hlabel : label.Regular M.toReadView)
    (hspare : Spares M i lba b label) (hs : b.hostStep reg label = some b') :
    M.disk b'.card.storage.media i lba = M.disk b.card.storage.media i lba := by
  cases label with
  | poke address value =>
    cases hs
    rfl
  | bus label =>
    cases label with
    | fifo event =>
      cases hs
      exact congrArg (fun st => M.disk st.media i lba) (isr_world b event).storage
    | service storage =>
      unfold Bridge.hostStep Bridge.step Bridge.service at hs
      dsimp only at hs
      split at hs
      · cases hs
        exact hspare
      · cases hs
    | worker io => exact workerStep_spares hb hlabel hspare hs

/-- A run that spares a block leaves it as it is. -/
lemma spared_run {labels : List (HostLabel Io σ)}
    (h : SparingRun M i lba b labels b') (hb : b.Regular M) :
    M.disk b'.card.storage.media i lba = M.disk b.card.storage.media i lba ∧ b'.Regular M := by
  induction h with
  | nil b => exact ⟨rfl, hb⟩
  | cons hg hs _ ih =>
    obtain ⟨hblock, hregular⟩ := ih (hb.step hg.1 hs)
    exact ⟨hblock.trans (hostStep_spares hb hg.1 hg.2 hs), hregular⟩

lemma reachable_regular {ram : ℕ → Byte} {storage : Routing σ} (hsound : M.Sound storage.media)
    {chan : MgmtChan n} {labels : List (HostLabel Io σ)}
    (h : Guarded (Bridge.hostStep reg) (fun _ label => label.Regular M.toReadView)
      (Bridge.initial ram storage chan) labels b) : b.Regular M := by
  have hstart : (Bridge.initial ram storage chan).Regular M := ⟨(fun t ht => by cases ht), hsound⟩
  exact h.invariant (fun _ _ _ hb hlabel hs => hb.step hlabel hs) hstart

variable (M) in
/-- The worker moves one block of a transfer under way. -/
structure MovesBlock (b b' : Bridge σ n) (t : Transfer) : Prop where
  underway : b.transfer = some t
  step : ∃ io, M.Honest io.storage ∧ b.workerStep reg io = some b'
  moved : ∃ u, b'.transfer = some u ∧ u.i = t.i + 1

/-- The boundary that moves a block, as an event of the drive. -/
lemma MovesBlock.event {t : Transfer} (h : MovesBlock M b b' t) (hb : b.Regular M) :
    ∃ e u, Drive.Step (b.drive M) e (b'.drive M) ∧ (b'.drive M).job = some u ∧
      u.moved = t.job.moved + 1 := by
  obtain ⟨io, hio, hs⟩ := h.step
  obtain ⟨u, hu, hi⟩ := h.moved
  have hstep : b' = b.afterBoundary (transferStep reg io b.card t) := by
    unfold Bridge.workerStep at hs
    rw [h.underway] at hs
    exact (Option.some.inj hs).symm
  obtain ⟨e, he, -⟩ := transferStep_moment M (hb.fits t h.underway) hio hb.sound
  rcases hr : transferStep reg io b.card t with ⟨c, _ | v⟩
  · rw [hstep, hr] at hu
    cases hu
  · rw [hr] at hstep he
    have hv : v = u := Option.some.inj ((congrArg Bridge.transfer hstep).symm.trans hu)
    refine ⟨e, u.job, ?_, ?_, hi⟩
    · have hdrive : b.drive M = b.card.drive M (some t) := congrArg (b.card.drive M) h.underway
      rw [hdrive, hstep]
      exact he
    · rw [hstep, ← hv]
      rfl

/-- The block a WRITE(6) has moved, once it is read, on any media. -/
lemma moved_block_read_back {b₀ b₁ b₂ b₃ : Bridge σ n} {tw tr : Transfer} (hb : b₀.Regular M)
    (hwrite : MovesBlock M b₀ b₁ tw) (hdir : tw.dir = .write) {between : List (HostLabel Io σ)}
    (hbetween : SparingRun M (M.behind b₀.card.storage tw.target) (tw.sector + tw.i) b₁ between b₂)
    (hread : MovesBlock M b₂ b₃ tr) (hdir' : tr.dir = .read)
    (hblock : (M.behind b₂.card.storage tr.target, tr.sector + tr.i) =
      (M.behind b₀.card.storage tw.target, tw.sector + tw.i)) :
    ∀ i < 512, b₃.card.ram ((tr.localDmaAddr + i) % ramSize) =
      b₀.card.ram ((tw.localDmaAddr + i) % ramSize) := by
  intro i hi
  obtain ⟨io, hio, hs⟩ := hwrite.step
  have hworker : b₀.hostStep reg (.bus (.worker io)) = some b₁ := hs
  have hregular : (HostLabel.bus (.worker io) : HostLabel Io σ).Regular M.toReadView := hio
  have hb₁ : b₁.Regular M := hb.step hregular hworker
  obtain ⟨hspared, hb₂⟩ := spared_run hbetween hb₁
  obtain ⟨e, u, hstored, hu, hmoved⟩ := hwrite.event hb
  obtain ⟨e', u', hdelivered, hu', hmoved'⟩ := hread.event hb₂
  have hjob : (b₀.drive M).job = some tw.job := congrArg (Option.map Transfer.job) hwrite.underway
  have hjob' : (b₂.drive M).job = some tr.job := congrArg (Option.map Transfer.job) hread.underway
  have hdisk : M.disk b₁.card.storage.media (M.behind b₀.card.storage tw.target) (tw.sector + tw.i) =
      ramSector b₀.card.ram tw.localDmaAddr := hstored.stored hjob hdir hu hmoved
  have hmemory : b₃.card.ram = Wrap.write ramSize b₂.card.ram tr.localDmaAddr 512
      (sectorBytes (M.disk b₂.card.storage.media (M.behind b₂.card.storage tr.target) (tr.sector + tr.i))) :=
    hdelivered.delivered hjob' hdir' hu' hmoved'
  obtain ⟨himage, hlba⟩ := Prod.mk.inj hblock
  rw [hmemory, Wrap.write_inside hi (hi.trans (by decide)), himage, hlba, hspared, hdisk, sectorBytes,
    dif_pos hi]
  rfl

end Spared

/-- Every byte of a block that a WRITE(6) moved to an image comes back with the READ(6) that moves
the same block of that image to memory, whatever happens in between. -/
theorem written_block_read_back {ram : ℕ → Byte} {storage : Routing Media} (hnamed : storage.media.sd.Named)
    {chan : MgmtChan n} {before between : List (HostLabel StorageIo Media)} {b₀ b₁ b₂ b₃ : Bridge Media n}
    {tw tr : Transfer}
    (hreach : Guarded (Bridge.hostStep cardRegistry) (fun _ label => label.Regular cardView.toReadView)
      (Bridge.initial ram storage chan) before b₀)
    (hwrite : MovesBlock cardView b₀ b₁ tw) (hdir : tw.dir = .write)
    (hbetween : SparingRun cardView (cardView.behind b₀.card.storage tw.target) (tw.sector + tw.i) b₁ between b₂)
    (hread : MovesBlock cardView b₂ b₃ tr) (hdir' : tr.dir = .read)
    (hblock : (cardView.behind b₂.card.storage tr.target, tr.sector + tr.i) =
      (cardView.behind b₀.card.storage tw.target, tw.sector + tw.i)) :
    ∀ i < 512, b₃.card.ram ((tr.localDmaAddr + i) % ramSize) =
      b₀.card.ram ((tw.localDmaAddr + i) % ramSize) :=
  moved_block_read_back (reachable_regular hnamed hreach) hwrite hdir hbetween hread hdir' hblock

/-- The worker comes to no write of this sector, and the console does nothing. -/
def Quiet (lba : ℕ) (b : Bridge Media 2) : CardLabel → Prop
  | .bus (.worker _) => ∀ t ∈ b.transfer, t.dir = .write → t.sector + t.i ≠ lba
  | .bus (.service _) => False
  | .bus (.fifo _) | .poke _ _ => True

instance (lba : ℕ) (b : Bridge Media 2) : (label : CardLabel) → Decidable (Quiet lba b label)
  | .bus (.worker _) => inferInstanceAs (Decidable (∀ t ∈ b.transfer, t.dir = .write → t.sector + t.i ≠ lba))
  | .bus (.service _) => isFalse id
  | .bus (.fifo _) | .poke _ _ => isTrue trivial

lemma Quiet.spares {i : ImageFile} {lba : ℕ} {b : Bridge Media 2} {label : CardLabel}
    (h : Quiet lba b label) : Spares cardView i lba b label := by
  cases label with
  | poke address value => trivial
  | bus label =>
    cases label with
    | fifo event => trivial
    | service storage => exact h.elim
    | worker io =>
      rintro ⟨t, ht, -, hdir, heq⟩
      exact h t ht hdir (Prod.mk.inj heq).2

lemma quiet_run {i : ImageFile} {lba : ℕ} {b b' : Bridge Media 2} {labels : List CardLabel}
    (h : followCard (Quiet lba) b labels = some b')
    (hall : ∀ label ∈ labels, label.Regular cardView.toReadView) :
    SparingRun cardView i lba b labels b' :=
  ((Guarded.of_follow h).and_labels hall).mono fun _ _ hg => ⟨hg.1, hg.2.spares⟩

/-- A byte is stored at 10h and WRITE(6) takes the block at 0 to sector 5 of the image behind target 0. -/
def writeIssued : List CardLabel :=
  .poke 0x10 0x42 :: pacedHost (commandAccesses [0x0A, 0, 0, 5, 1, 0])

/-- The write ends and its answer is read. -/
def writeAnswered : List CardLabel := workerTurn :: pacedHost [.readCommit .data, .readCommit .data]

/-- The console mounts another image on target 2. -/
def otherMounted (b : Bridge Media 2) : CardLabel :=
  .bus (.service (callStep b.card.storage (.mountOn .fujinet 2 [99] false, readyIo)).1)

/-- Target 1 is selected and READ(6) of sector 5 goes to 200h. -/
def readIssued : List CardLabel :=
  .bus (.fifo (.write .addrM 0x02)) :: pacedHost ([.write .control 0x10, .write .data 0x02, .write .control 0x00] ++
    [0x08, 0, 0, 5, 1, 0].map (.write .data))

/-- Two targets of the FujiNet serve one image. -/
def sharedBridge : Bridge Media 2 := .initial (fun _ => 0) sharedImage (.initial Nat.two_pos)

def writeUnderway : Bridge Media 2 := (followCard (fun _ _ => True) sharedBridge writeIssued).get rfl

def blockWritten : Bridge Media 2 := (writeUnderway.hostStep cardRegistry workerTurn).get rfl

def answerRead : Bridge Media 2 := (followCard (Quiet 5) blockWritten writeAnswered).get rfl

def imageMounted : Bridge Media 2 := (answerRead.hostStep cardRegistry (otherMounted answerRead)).get rfl

def readUnderway : Bridge Media 2 := (followCard (Quiet 5) imageMounted readIssued).get rfl

def blockRead : Bridge Media 2 := (readUnderway.hostStep cardRegistry workerTurn).get rfl

lemma cons_regular {label : CardLabel} (h : label.Regular cardView.toReadView) {events : List FifoEvent} :
    ∀ l ∈ label :: pacedHost events, l.Regular cardView.toReadView :=
  List.forall_mem_cons.mpr ⟨h, pacedHost_regular⟩

/-- A turn of the console that writes no image of the FujiNet. -/
lemma service_spares {b : Bridge Media 2} {storage : Routing Media}
    (h : storage.media.fuji.images = b.card.storage.media.fuji.images) (path : Path) (lba : ℕ) :
    Spares cardView (.fuji path) lba b (.bus (.service storage)) := congrFun (congrFun h path) lba

lemma sharedImage_named : sharedImage.media.sd.Named := by
  refine callsFrom_named ?_ (powerUp_named _ _ _)
  simp [Call.Short, conopNameMax]

/-- The byte written through target 0 is read back through target 1, with a mount in between. -/
theorem written_block_read_back_otherTarget :
    writeUnderway.card.ram 0x10 = 0x42 ∧ blockRead.card.ram 0x210 = writeUnderway.card.ram 0x10 := by
  have hissue : Run (Bridge.hostStep cardRegistry) sharedBridge writeIssued writeUnderway :=
    Guarded.of_follow rfl
  have hreach := (hissue.and_labels (cons_regular (by trivial))).mono fun _ _ h => h.1
  have hwrite : MovesBlock cardView writeUnderway blockWritten ⟨.write, 0, 5, 1, 0, 0, true, false⟩ :=
    ⟨rfl, ⟨⟨roomyIo.op, fun _ => .ok⟩, fun _ _ => le_rfl, rfl⟩, _, rfl, rfl⟩
  have hanswered : SparingRun cardView (.fuji [98]) 5 blockWritten writeAnswered answerRead :=
    quiet_run rfl (cons_regular workerTurn_regular)
  have hregular : answerRead.Regular cardView :=
    (spared_run hanswered ((reachable_regular sharedImage_named hreach).step workerTurn_regular rfl)).2
  have hnamed : (callStep answerRead.card.storage (.mountOn .fujinet 2 [99] false, readyIo)).1.media.sd.Named :=
    callStep_named hregular.sound (by simp [Call.Short, conopNameMax])
  have himages : (callStep answerRead.card.storage (.mountOn .fujinet 2 [99] false, readyIo)).1.media.fuji.images =
      answerRead.card.storage.media.fuji.images := rfl
  have hspare : Spares cardView (.fuji [98]) 5 answerRead (otherMounted answerRead) :=
    service_spares himages [98] 5
  have hmounted : SparingRun cardView (.fuji [98]) 5 answerRead [otherMounted answerRead] imageMounted :=
    .cons ⟨hnamed, hspare⟩ rfl (.nil _)
  have hissued : SparingRun cardView (.fuji [98]) 5 imageMounted readIssued readUnderway :=
    quiet_run rfl (cons_regular (by trivial))
  have hread : MovesBlock cardView readUnderway blockRead ⟨.read, 1, 5, 1, 0, 0x200, true, false⟩ :=
    ⟨rfl, ⟨⟨roomyIo.op, fun _ => .ok⟩, fun _ _ => le_rfl, rfl⟩, _, rfl, rfl⟩
  exact ⟨rfl, written_block_read_back sharedImage_named hreach hwrite rfl
    ((hanswered.append hmounted).append hissued) hread rfl rfl 0x10 (by decide)⟩

end PicoV9k.Sasi
