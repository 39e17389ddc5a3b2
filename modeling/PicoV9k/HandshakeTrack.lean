import PicoV9k.HandshakeScript
import PicoV9k.IsrEffects

/-!
# Host and worker on one track

`Tracks` links the two ends of the queue: the controller is at the stage `w` of the
worker, the queued accesses lead from `w` to `h`, and the rest of the script follows
from `h`. What a host access, a RESET and a worker step make of the two stages.
-/
namespace PicoV9k.Sasi
open PicoV9k.Bus PicoV9k.Storage PicoV9k.Mgmt

variable {Io σ : Type} {n : ℕ}

/-- SELECT is asserted at this stage. -/
def Stage.selecting : Stage → Bool
  | .selected _ => true
  | _ => false

/-- The register an access reads. -/
def Access.reads : Access → Option Reg
  | .readAddress cell => some cell
  | .await _ => some .status
  | .readData => some .data
  | _ => none

/-- An access with an entry in the queue. -/
def Access.queues : Access → Bool
  | .control _ | .target _ | .select _ | .cdb _ | .readData => true
  | _ => false

structure Tracks (s : System σ n) (w h : Stage) (todo : List BootStep) (a : DmaAddress) : Prop where
  worker : w.Holds s.bridge.card.controller s.bridge.transfer
  queue : w.Steps s.bridge.queue h
  script : Follows s.host.script todo h a
  select : hasBit s.bridge.card.cache.control dmaSelectBit = h.selecting
  reading : s.host.outstanding ≠ none → ∃ x rest, s.host.script = x :: rest ∧ x.reads ≠ none

/-- The cell the host polls. -/
def System.cell (s : System σ n) : Byte := s.bridge.card.cache.status

/-- What every host access leaves alone; `a` and `a'` are the programmed addresses. -/
structure HostKept (s s' : System σ n) (a a' : DmaAddress) : Prop where
  controller : s'.bridge.card.controller = s.bridge.card.controller
  history : s'.bridge.card.history = s.bridge.card.history
  requested : s'.bridge.card.dma.resetRequested = s.bridge.card.dma.resetRequested
  drops : s'.bridge.drops = s.bridge.drops
  tick : s'.bridge.fifoEntries = s.bridge.fifoEntries + 1
  queue : (s'.bridge.queue = s.bridge.queue ∧ (s'.host.script = s.host.script ∨
      ∃ x, s.host.script = x :: s'.host.script ∧ x.queues = false)) ∨
    ∃ e x, s'.bridge.queue = s.bridge.queue ++ [e] ∧ e.seenAt = s'.bridge.fifoEntries ∧
      ¬ e.IsReset ∧ s.host.script = x :: s'.host.script ∧ x.queues = true
  address : s.bridge.card.dma.dmaAddress = a → s'.bridge.card.dma.dmaAddress = a'
  top : s'.bridge.card.dma.dmaAddress.top = s.bridge.card.dma.dmaAddress.top

/-- What a host access does to the stage, to the exchanges and to the polled cell. -/
inductive HostMoved (s s' : System σ n) :
    Stage → List BootStep → DmaAddress → Stage → List BootStep → DmaAddress → Prop
  | quiet {last last' : Option Byte} {todo : List BootStep} {a a' : DmaAddress} (ho : s'.host.outstanding = none)
      (hx : s'.host.exchanges = s.host.exchanges) (hc : s'.cell = s.cell) :
      HostMoved s s' (.free last) todo a (.free last') todo a'
  | select {last : Option Byte} {target : Byte} {todo : List BootStep} {a : DmaAddress}
      (ho : s'.host.outstanding = none) (hx : s'.host.exchanges = .opened :: s.host.exchanges)
      (hc : s'.cell = phaseBsy) : HostMoved s s' (.free last) todo a (.selected target) todo a
  | release {target : Byte} {todo : List BootStep} {a : DmaAddress} (ho : s'.host.outstanding = none)
      (hx : s'.host.exchanges = s.host.exchanges) (hc : s'.cell = phaseCommand) :
      HostMoved s s' (.selected target) todo a (.command target []) todo a
  | byte {target data : Byte} {bytes : List Byte} {todo : List BootStep} {a : DmaAddress}
      (ho : s'.host.outstanding = none)
      (hx : s'.host.exchanges = (s.host.amend (.wrote data s'.bridge.fifoEntries)).exchanges)
      (hc : s'.cell = s.cell) :
      HostMoved s s' (.command target bytes) todo a (.command target (bytes ++ [data])) todo a
  | lastByte {target data : Byte} {bytes : List Byte} {cmd : BootStep} {todo : List BootStep}
      {a : DmaAddress} (hcmd : cmd.Issued target (bytes ++ [data]) a) (ho : s'.host.outstanding = none)
      (hx : s'.host.exchanges = (s.host.amend (.wrote data s'.bridge.fifoEntries)).exchanges)
      (hc : s'.cell = s.cell) :
      HostMoved s s' (.command target bytes) (cmd :: todo) a
        (.executing target (bytes ++ [data]) s'.bridge.fifoEntries) todo a
  | fetch {h : Stage} {todo : List BootStep} {a : DmaAddress} {x : Access} {rest : List Access} {target : Reg}
      (hscript : s.host.script = x :: rest) (hx' : x.reads = some target)
      (hs : s'.host.script = s.host.script)
      (ho : s'.host.outstanding = some (s.bridge.served target))
      (hx : s'.host.exchanges =
        if x = .readData ∧ s.bridge.cachedPhase = sasiCtlBit ||| sasiInpBit then
          (s.host.amend (.sourced s.bridge.card.history.statusOf)).exchanges
        else s.host.exchanges)
      (hc : s'.cell = s.cell) : HostMoved s s' h todo a h todo a
  | polled {h : Stage} {todo : List BootStep} {a : DmaAddress} {phase value : Byte} {rest : List Access}
      (hscript : s.host.script = .await phase :: rest) (hv : s.host.outstanding = some value)
      (ho : s'.host.outstanding = none)
      (hx : s'.host.exchanges = (s.host.amend (.saw (value &&& statusMask))).exchanges)
      (hc : s'.cell = s.cell) : HostMoved s s' h todo a h todo a
  | statusRead {τ : ℕ} {b value : Byte} {todo : List BootStep} {a : DmaAddress} {rest : List Access}
      (hscript : s.host.script = .readData :: rest) (hv : s.host.outstanding = some value)
      (ho : s'.host.outstanding = none)
      (hx : s'.host.exchanges = (s.host.amend (.got value)).exchanges)
      (hc : s'.cell = (CachedRegs.dataRead s.bridge.card.cache).status) :
      HostMoved s s' (.status τ b) todo a (.message b) todo a
  | messageRead {b value : Byte} {todo : List BootStep} {a : DmaAddress} {rest : List Access}
      (hscript : s.host.script = .readData :: rest) (hv : s.host.outstanding = some value)
      (ho : s'.host.outstanding = none)
      (hx : s'.host.exchanges = (s.host.amend (.got value)).exchanges)
      (hc : s'.cell = (CachedRegs.dataRead s.bridge.card.cache).status) :
      HostMoved s s' (.message b) todo a (.free none) todo a

/-- A host access seen from both ends of the queue. -/
def HostOutcome (s s' : System σ n) (w h : Stage) (todo : List BootStep) (a : DmaAddress) : Prop :=
  ∃ h' todo' a', Tracks s' w h' todo' a' ∧ HostKept s s' a a' ∧
    HostMoved s s' h todo a h' todo' a'

section Writes

variable {s : System σ n} {w h : Stage} {todo : List BootStep} {a : DmaAddress}

/-- The bridge after a CONTROL write without RESET. -/
lemma hostWrite_control (hroom : s.bridge.Room) {data : Byte} (hr : hasBit data dmaResetBit = false) :
    s.bridge.hostWrite .control data =
      (s.bridge.tick.withCard (s.bridge.card.predicted data)).queued (.write .control data) := by
  unfold Bridge.hostWrite
  have hroom' : (s.bridge.tick.withCard (s.bridge.card.predicted data)).Room := hroom
  rw [isr_write_control s.bridge hr]
  exact enqueue_room hroom' _

lemma hostWrite_data (hroom : s.bridge.Room) (data : Byte) :
    s.bridge.hostWrite .data data =
      (s.bridge.tick.withCard s.bridge.card).queued (.write .data data) := by
  unfold Bridge.hostWrite
  have hroom' : (s.bridge.tick.withCard s.bridge.card).Room := hroom
  rw [isr_write_data s.bridge data]
  exact enqueue_room hroom' _

/-- The frame of a queued access that changes nothing but cells. -/
lemma queued_kept {s' : System σ n} {c : Card σ} {event : FifoEvent} {x : Access}
    (hb : s'.bridge = (s.bridge.tick.withCard c).queued event)
    (hcontroller : c.controller = s.bridge.card.controller)
    (hhist : c.history = s.bridge.card.history) (hdma : c.dma = s.bridge.card.dma)
    (hnr : ¬ Entry.IsReset ⟨event, s.bridge.fifoEntries + 1⟩)
    (hscript : s.host.script = x :: s'.host.script) (hx : x.queues = true) : HostKept s s' a a := by
  have hdma' : s'.bridge.card.dma = s.bridge.card.dma := by rw [hb]; exact hdma
  refine ⟨by rw [hb]; exact hcontroller, by rw [hb]; exact hhist,
    congrArg Registers.resetRequested hdma', by rw [hb]; rfl, by rw [hb]; rfl,
    .inr ⟨⟨event, s.bridge.fifoEntries + 1⟩, x, by rw [hb]; rfl, by rw [hb]; rfl, hnr, hscript, hx⟩,
    fun ha => ?_, ?_⟩
  · rw [hdma']; exact ha
  · rw [hdma']

/-- A queued access moves the far end of the track by one step. -/
lemma Tracks.queued {c : Card σ} {event : FifoEvent} {h' : Stage} {todo' : List BootStep}
    {a' : DmaAddress} (ht : Tracks s w h todo a) (s' : System σ n)
    (hb : s'.bridge = (s.bridge.tick.withCard c).queued event)
    (hcontroller : c.controller = s.bridge.card.controller)
    (hstep : h.Step ⟨event, s.bridge.fifoEntries + 1⟩ h')
    (hscript : Follows s'.host.script todo' h' a')
    (hsel : hasBit c.cache.control dmaSelectBit = h'.selecting) (ho : s'.host.outstanding = none) :
    Tracks s' w h' todo' a' := by
  refine ⟨?_, ?_, hscript, ?_, fun hn => absurd ho hn⟩
  · rw [hb]
    exact hcontroller ▸ ht.worker
  · rw [hb]
    exact ht.queue.snoc hstep
  · rw [hb]
    exact hsel

lemma not_isReset_data (data : Byte) (τ : ℕ) : ¬ Entry.IsReset ⟨.write .data data, τ⟩ :=
  fun ⟨_, he, _⟩ => by cases he

lemma not_isReset_control {data : Byte} (hr : hasBit data dmaResetBit = false) (τ : ℕ) :
    ¬ Entry.IsReset ⟨.write .control data, τ⟩ := by
  rintro ⟨d, he, hd⟩
  cases he
  rw [hr] at hd
  cases hd

lemma Tracks.control (ht : Tracks s w h todo a) (hroom : s.bridge.Room)
    (ho : s.host.outstanding = none) {data : Byte} {rest : List Access}
    (hscript : s.host.script = .control data :: rest) :
    HostOutcome s (s.write .control data rest) w h todo a := by
  have hf := ht.script
  rw [hscript] at hf
  obtain ⟨⟨hr, hs⟩, hcase⟩ := hf
  have hb := hostWrite_control hroom hr
  have hk : HostKept s (s.write .control data rest) a a :=
    queued_kept hb rfl rfl rfl (not_isReset_control hr _) hscript rfl
  rcases hcase with ⟨last, rfl, hrest⟩ | ⟨target, rfl, hrest⟩
  · have hcache := predicted_plain (c := s.bridge.card) hr (hs.trans ht.select.symm)
    refine ⟨_, _, _, ht.queued _ hb rfl (.configure last _ hr hs) hrest hs ho, hk, .quiet ho rfl ?_⟩
    show (s.bridge.hostWrite .control data).card.cache.status = _
    rw [hb]
    show (s.bridge.card.predicted data).cache.status = _
    rw [hcache]
    rfl
  · have hcache := predicted_release (c := s.bridge.card) hr hs ht.select
    refine ⟨_, _, _, ht.queued _ hb rfl (.release target _ hr hs) hrest hs ho, hk, .release ho rfl ?_⟩
    show (s.bridge.hostWrite .control data).card.cache.status = _
    rw [hb]
    show (s.bridge.card.predicted data).cache.status = _
    rw [hcache]
    rfl

lemma Tracks.selectWrite (ht : Tracks s w h todo a) (hroom : s.bridge.Room)
    (ho : s.host.outstanding = none) {data : Byte} {rest : List Access}
    (hscript : s.host.script = .select data :: rest) :
    HostOutcome s (s.write .control data rest).open w h todo a := by
  have hf := ht.script
  rw [hscript] at hf
  obtain ⟨⟨hr, hs⟩, b, rfl, hrest⟩ := hf
  have hb := hostWrite_control hroom hr
  have hcache := predicted_select (c := s.bridge.card) hr hs ht.select
  refine ⟨_, _, _, ht.queued (s.write .control data rest).open hb rfl (.select b _ hr hs) hrest
    hs ho, queued_kept hb rfl rfl rfl (not_isReset_control hr _) hscript rfl, .select ho rfl ?_⟩
  show (s.bridge.hostWrite .control data).card.cache.status = _
  rw [hb]
  show (s.bridge.card.predicted data).cache.status = _
  rw [hcache]
  rfl

lemma Tracks.target (ht : Tracks s w h todo a) (hroom : s.bridge.Room)
    (ho : s.host.outstanding = none) {data : Byte} {rest : List Access}
    (hscript : s.host.script = .target data :: rest) :
    HostOutcome s (s.write .data data rest) w h todo a := by
  have hf := ht.script
  rw [hscript] at hf
  obtain ⟨⟨last, rfl⟩, hrest⟩ := hf
  have hb := hostWrite_data hroom data
  refine ⟨_, _, _, ht.queued (s.write .data data rest) hb rfl (.target last data _) hrest
    ht.select ho, queued_kept hb rfl rfl rfl (not_isReset_data data _) hscript rfl, .quiet ho rfl ?_⟩
  show (s.bridge.hostWrite .data data).card.cache.status = _
  rw [hb]
  rfl

lemma Tracks.cdb (ht : Tracks s w h todo a) (hroom : s.bridge.Room)
    (ho : s.host.outstanding = none) {data : Byte} {rest : List Access}
    (hscript : s.host.script = .cdb data :: rest) :
    HostOutcome s (s.begin (.cdb data) rest) w h todo a := by
  have hf := ht.script
  rw [hscript] at hf
  obtain ⟨target, bytes, rfl, hcase⟩ := hf
  have hb := hostWrite_data hroom data
  have hb' : (s.begin (.cdb data) rest).bridge = _ := hb
  have hc : (s.begin (.cdb data) rest).cell = s.cell := by
    show (s.begin (.cdb data) rest).bridge.card.cache.status = _
    rw [hb']
    rfl
  have hk : HostKept s (s.begin (.cdb data) rest) a a :=
    queued_kept hb' rfl rfl rfl (not_isReset_data data _) hscript rfl
  have htick : (s.begin (.cdb data) rest).bridge.fifoEntries = s.bridge.fifoEntries + 1 := hk.tick
  rcases hcase with ⟨hlen, hrest⟩ | ⟨hlen, cmd, todo', rfl, hcmd, hrest⟩
  · exact ⟨_, _, _, ht.queued _ hb' rfl (.byte target data _ hlen) hrest ht.select ho, hk,
      .byte ho rfl hc⟩
  · refine ⟨_, _, _, ht.queued _ hb' rfl (.lastByte target data _ hlen) (hrest _)
      ht.select ho, hk, ?_⟩
    exact htick ▸ .lastByte hcmd ho rfl hc

lemma Tracks.addressWrite (ht : Tracks s w h todo a) (ho : s.host.outstanding = none) {target : Reg}
    {data : Byte} {rest : List Access} (hscript : s.host.script = .address target data :: rest) :
    HostOutcome s (s.write target data rest) w h todo a := by
  have hf := ht.script
  rw [hscript] at hf
  obtain ⟨⟨last, rfl⟩, haddr, hrest⟩ := hf
  have hb : (s.write target data rest).bridge =
      s.bridge.tick.withCard (s.bridge.card.addressed target data) := isr_write_address s.bridge data haddr
  have hcell (c : CachedRegs) (x : Byte) : (CachedRegs.store c target x).status = c.status ∧
      (CachedRegs.store c target x).control = c.control := by
    cases target <;> first | exact ⟨rfl, rfl⟩ | cases haddr
  refine ⟨_, _, _, ⟨?_, ?_, hrest, ?_, fun hn => absurd ho hn⟩, 
    ⟨?_, ?_, ?_, ?_, ?_, .inl ⟨?_, .inr ⟨_, hscript, rfl⟩⟩, fun ha => ?_, ?_⟩, .quiet ho rfl ?_⟩
  · rw [hb]; exact ht.worker
  · rw [hb]; exact ht.queue
  · rw [hb]
    exact (congrArg (hasBit · dmaSelectBit) (hcell _ _).2).trans ht.select
  · rw [hb]; rfl
  · rw [hb]; rfl
  · rw [hb]; rfl
  · rw [hb]; rfl
  · rw [hb]; rfl
  · rw [hb]; rfl
  · rw [hb, ← ha]; rfl
  · rw [hb]; exact store_top _ _ _
  · show (s.write target data rest).bridge.card.cache.status = _
    rw [hb]
    exact (hcell _ _).1

end Writes

section Reads

variable {s : System σ n} {w h : Stage} {todo : List BootStep} {a : DmaAddress}

/-- A word that leaves the queue alone and changes only cells and the interrupt. -/
lemma still_kept {s' : System σ n} (hcontroller : s'.bridge.card.controller = s.bridge.card.controller)
    (hhist : s'.bridge.card.history = s.bridge.card.history)
    (hreq : s'.bridge.card.dma.resetRequested = s.bridge.card.dma.resetRequested)
    (haddr : s'.bridge.card.dma.dmaAddress = s.bridge.card.dma.dmaAddress)
    (hdrops : s'.bridge.drops = s.bridge.drops)
    (htick : s'.bridge.fifoEntries = s.bridge.fifoEntries + 1)
    (hqueue : s'.bridge.queue = s.bridge.queue)
    (hscript : s'.host.script = s.host.script ∨
      ∃ x, s.host.script = x :: s'.host.script ∧ x.queues = false) : HostKept s s' a a :=
  ⟨hcontroller, hhist, hreq, hdrops, htick, .inl ⟨hqueue, hscript⟩, fun ha => haddr.trans ha,
    congrArg DmaAddress.top haddr⟩

/-- The first half of a read other than DATA. -/
lemma Tracks.fetchOther (ht : Tracks s w h todo a) {x : Access} {rest : List Access} {target : Reg}
    (hscript : s.host.script = x :: rest) (hx : x.reads = some target) (hd : target ≠ .data)
    (hout : target ≠ .outside) (hne : x ≠ .readData) :
    HostOutcome s (s.fetch target) w h todo a := by
  have hisr := isr_prefetch_other s.bridge hd hout
  have hb : (s.fetch target).bridge =
      { s.bridge.tick with pendingPrefetch := s.bridge.pendingPrefetch + 1 } := congrArg Prod.fst hisr
  have hserved : s.bridge.served target = s.bridge.cell target := by
    cases target <;> first | rfl | exact absurd rfl hd
  have hcard : (s.fetch target).bridge.card = s.bridge.card := by rw [hb]; rfl
  refine ⟨h, todo, a, ⟨?_, ?_, ht.script, ?_, fun _ => ⟨x, rest, hscript, ?_⟩⟩, ?_,
    .fetch hscript hx rfl ?_ ?_ ?_⟩
  · rw [hb]; exact ht.worker
  · rw [hb]; exact ht.queue
  · rw [hcard]; exact ht.select
  · rw [hx]; exact Option.some_ne_none _
  · exact still_kept (by rw [hcard]) (by rw [hcard]) (by rw [hcard]) (by rw [hcard])
      (by rw [hb]; rfl) (by rw [hb]; rfl) (by rw [hb]; rfl) (.inl rfl)
  · rw [hserved]; exact congrArg Prod.snd hisr
  · rw [if_neg fun hc => hne hc.1]
    rfl
  · exact congrArg (·.cache.status) hcard

lemma Tracks.fetchData (ht : Tracks s w h todo a) {rest : List Access}
    (hscript : s.host.script = .readData :: rest) :
    HostOutcome s (s.begin .readData rest) w h todo a := by
  have hcases : s.begin .readData rest = (s.fetch .data).note (.sourced s.bridge.card.history.statusOf) ∧
        s.bridge.cachedPhase = sasiCtlBit ||| sasiInpBit ∨
      s.begin .readData rest = s.fetch .data ∧
        ¬ s.bridge.cachedPhase = sasiCtlBit ||| sasiInpBit := by
    by_cases hp : s.bridge.cachedPhase = sasiCtlBit ||| sasiInpBit
    · exact .inl ⟨if_pos hp, hp⟩
    · exact .inr ⟨if_neg hp, hp⟩
  have hreads : Access.readData.reads ≠ none := Option.some_ne_none _
  rcases hcases with ⟨heq, hp⟩ | ⟨heq, hp⟩
  · rw [heq]
    exact ⟨h, todo, a, ⟨ht.worker, ht.queue, ht.script, ht.select, fun _ => ⟨_, rest, hscript, hreads⟩⟩,
      still_kept rfl rfl rfl rfl rfl rfl rfl (.inl rfl),
      .fetch hscript rfl rfl rfl (if_pos ⟨rfl, hp⟩).symm rfl⟩
  · rw [heq]
    exact ⟨h, todo, a, ⟨ht.worker, ht.queue, ht.script, ht.select, fun _ => ⟨_, rest, hscript, hreads⟩⟩,
      still_kept rfl rfl rfl rfl rfl rfl rfl (.inl rfl),
      .fetch hscript rfl rfl rfl (if_neg fun hc => hp hc.2).symm rfl⟩

/-- The second half of a poll; a running command is not taken for finished. -/
lemma Tracks.polled (ht : Tracks s w h todo a) {phase value : Byte} {rest : List Access}
    (hscript : s.host.script = .await phase :: rest) (hv : s.host.outstanding = some value)
    (hsight : value &&& statusMask = phaseStatus → ¬ h.Busy) :
    HostOutcome s (s.conclude value (.await phase) rest) w h todo a := by
  have hf := ht.script
  rw [hscript] at hf
  have hnext : Follows (if value &&& statusMask = phase then rest else .await phase :: rest) todo h a := by
    split
    next hseen =>
      by_cases hbusy : h.Busy
      · have hphase := (hf.2 hbusy).1
        exact absurd hbusy (hsight (hseen.trans hphase))
      · exact (hf.1 hbusy).2
    next => exact hf
  have hscript' : (if value &&& statusMask = phase then rest else .await phase :: rest) =
      s.host.script ∨ ∃ x, s.host.script =
        x :: (if value &&& statusMask = phase then rest else .await phase :: rest) ∧
          x.queues = false := by
    split
    · exact .inr ⟨_, hscript, rfl⟩
    · exact .inl hscript.symm
  exact ⟨h, todo, a, ⟨ht.worker, ht.queue, hnext, ht.select, fun hn => absurd rfl hn⟩,
    still_kept rfl rfl rfl rfl rfl rfl rfl hscript', .polled hscript hv rfl rfl rfl⟩

lemma Tracks.addressRead (ht : Tracks s w h todo a) {target : Reg} {value : Byte} {rest : List Access}
    (hscript : s.host.script = .readAddress target :: rest) :
    HostOutcome s (s.conclude value (.readAddress target) rest) w h todo a := by
  have hf := ht.script
  rw [hscript] at hf
  obtain ⟨⟨last, rfl⟩, haddr, hrest⟩ := hf
  have hb : (s.conclude value (.readAddress target) rest).bridge =
      s.bridge.tick.withCard s.bridge.card := isr_commit_address s.bridge haddr
  refine ⟨_, _, _, ⟨?_, ?_, hrest, ?_, fun hn => absurd rfl hn⟩, ?_, .quiet rfl rfl ?_⟩
  · rw [hb]; exact ht.worker
  · rw [hb]; exact ht.queue
  · rw [hb]; exact ht.select
  · exact still_kept (by rw [hb]; rfl) (by rw [hb]; rfl) (by rw [hb]; rfl) (by rw [hb]; rfl)
      (by rw [hb]; rfl) (by rw [hb]; rfl) (by rw [hb]; rfl) (.inr ⟨_, hscript, rfl⟩)
  · show (s.conclude value (.readAddress target) rest).bridge.card.cache.status = _
    rw [hb]
    rfl

lemma dataRead_control (c : CachedRegs) : (CachedRegs.dataRead c).control = c.control := by
  unfold CachedRegs.dataRead
  split
  · rfl
  · split <;> rfl

lemma dataRead_status (c : CachedRegs) (hc : c.status = phaseStatus) :
    (CachedRegs.dataRead c).status = phaseMessage := by
  unfold CachedRegs.dataRead
  rw [hc, if_neg (by decide), if_pos (by decide)]
  rfl

lemma dataRead_message (c : CachedRegs) (hc : c.status = phaseMessage) :
    (CachedRegs.dataRead c).status = phaseIdle := by
  unfold CachedRegs.dataRead
  rw [hc, if_pos (by decide)]
  rfl

/-- The second half of a DATA read, with its queue entry. -/
lemma Tracks.dataRead (ht : Tracks s w h todo a) (hroom : s.bridge.Room) {value : Byte}
    {rest : List Access} (hscript : s.host.script = .readData :: rest)
    (hv : s.host.outstanding = some value) :
    HostOutcome s (s.conclude value .readData rest) w h todo a := by
  have hf := ht.script
  rw [hscript] at hf
  have hroom' : (s.bridge.tick.withCard s.bridge.card.dataTaken).Room := hroom
  have hb : (s.conclude value .readData rest).bridge =
      (s.bridge.tick.withCard s.bridge.card.dataTaken).queued (.readCommit .data) :=
    (isr_commit_data s.bridge).trans (enqueue_room hroom' _)
  have hnr (τ : ℕ) : ¬ Entry.IsReset ⟨.readCommit .data, τ⟩ := fun ⟨_, he, _⟩ => by cases he
  have hsel (x : Bool) (hx : h.selecting = x) :
      hasBit (CachedRegs.dataRead s.bridge.card.cache).control dmaSelectBit = x := by
    rw [dataRead_control, ht.select, hx]
  have hk : HostKept s (s.conclude value .readData rest) a a := 
    queued_kept hb rfl rfl rfl (hnr _) hscript rfl
  have hc : (s.conclude value .readData rest).cell =
      (CachedRegs.dataRead s.bridge.card.cache).status := by
    show (s.conclude value .readData rest).bridge.card.cache.status = _
    rw [hb]
    rfl
  rcases hf with ⟨τ, v, rfl, hrest⟩ | ⟨v, rfl, hrest⟩
  · exact ⟨_, _, _, ht.queued _ hb rfl (.statusRead τ v _) hrest (hsel _ rfl) rfl, hk,
      .statusRead hscript hv rfl rfl hc⟩
  · exact ⟨_, _, _, ht.queued _ hb rfl (.messageRead v _) hrest (hsel _ rfl) rfl, hk,
      .messageRead hscript hv rfl rfl hc⟩

end Reads

/-- A host access moves the far end of the track as its stage allows. -/
theorem Tracks.host {s s' : System σ n} {w h : Stage} {todo : List BootStep} {a : DmaAddress}
    (ht : Tracks s w h todo a) (hroom : s.bridge.Room) (hs : s.hostStep = some s')
    (hsight : ∀ value phase rest, s.host.outstanding = some value →
      s.host.script = .await phase :: rest → value &&& statusMask = phaseStatus → ¬ h.Busy) :
    HostOutcome s s' w h todo a := by
  have hf := ht.script
  unfold System.hostStep at hs
  split at hs
  · cases hs
  next value x rest hv hscript =>
    cases hs
    obtain ⟨y, tail, hy, hreads⟩ := ht.reading (by rw [hv]; exact Option.some_ne_none _)
    rw [hscript] at hy
    cases hy
    cases x with
    | await phase => exact ht.polled hscript hv (hsight value phase rest hv hscript)
    | readAddress target => exact ht.addressRead hscript
    | readData => exact ht.dataRead hroom hscript hv
    | _ => exact absurd rfl hreads
  next x rest ho hscript =>
    cases hs
    cases x with
    | control data => exact ht.control hroom ho hscript
    | address target data => exact ht.addressWrite ho hscript
    | target data => exact ht.target hroom ho hscript
    | select data => exact ht.selectWrite hroom ho hscript
    | cdb data => exact ht.cdb hroom ho hscript
    | readAddress target =>
      rw [hscript] at hf
      have haddr := hf.2.1
      refine ht.fetchOther hscript rfl ?_ ?_ Access.noConfusion
      · rintro rfl
        cases haddr
      · rintro rfl
        cases haddr
    | await phase => exact ht.fetchOther hscript rfl Reg.noConfusion Reg.noConfusion Access.noConfusion
    | readData => exact ht.fetchData hscript

lemma resetSeen_controller (c : Card σ) (data : Byte) (τ : ℕ) :
    (c.resetSeen data τ).controller = c.controller := rfl

/-- After a RESET the far end is a free bus and the script is the new one. -/
theorem Tracks.reset {s s' : System σ n} {w h : Stage} {todo : List BootStep} {a : DmaAddress}
    (ht : Tracks s w h todo a) (hroom : s.bridge.Room) {data : Byte} {cmds : List BootStep}
    (hs : s.hostReset data cmds = some s') {a' : DmaAddress} (ha : a'.top = 0) :
    Tracks s' w (.free none) cmds a' ∧
      s'.bridge = (s.bridge.tick.withCard
        (s.bridge.card.resetSeen data (s.bridge.fifoEntries + 1))).queued (.write .control data) ∧
      s'.host.exchanges = s.host.exchanges ∧ s'.host.outstanding = none ∧
      hasBit data dmaResetBit = true ∧ s'.cell = 0 := by
  unfold System.hostReset at hs
  split at hs
  next hcond =>
    obtain ⟨ho, hr, hnsel⟩ := hcond
    cases hs
    have hsel : hasBit data dmaSelectBit = false := Bool.eq_false_iff.mpr hnsel
    have hroom' : (s.bridge.tick.withCard
        (s.bridge.card.resetSeen data (s.bridge.fifoEntries + 1))).Room := hroom
    have hb := (isr_write_reset s.bridge hr).trans (enqueue_room hroom' _)
    have hb' : (s.write .control data (cmds.flatMap runBootStep)).bridge = _ := hb
    refine ⟨ht.queued _ hb' (resetSeen_controller _ _ _) (.reset h _ hr hsel)
      (bootSteps_follow cmds none ha) hsel ho, hb', rfl, ho, hr, ?_⟩
    · show (s.write .control data (cmds.flatMap runBootStep)).bridge.card.cache.status = _
      rw [hb']
      rfl
  · cases hs

theorem Tracks.skip {s s' : System σ n} {w h : Stage} {todo : List BootStep} {a : DmaAddress}
    (ht : Tracks s w h todo a) (hs : s.hostSkip = some s') :
    Tracks s' w h todo a ∧ s'.bridge = s.bridge ∧ s'.host.exchanges = s.host.exchanges ∧
      s'.host.outstanding = none := by
  unfold System.hostSkip at hs
  split at hs
  next phase rest ho hscript =>
    split at hs
    next hmem =>
      cases hs
      have hf := ht.script
      rw [hscript] at hf
      have hidle : ¬ h.Busy := by
        intro hb
        rw [(hf.2 hb).1] at hmem
        revert hmem
        decide
      exact ⟨⟨ht.worker, ht.queue, (hf.1 hidle).2, ht.select, fun hn => absurd ho hn⟩, rfl, rfl, ho⟩
    · cases hs
  · cases hs

theorem Tracks.service {s : System σ n} {w h : Stage} {todo : List BootStep} {a : DmaAddress}
    (ht : Tracks s w h todo a) (storage : Routing σ) :
    Tracks { s with bridge := { s.bridge with card := { s.bridge.card with storage := storage } } }
      w h todo a :=
  ⟨ht.worker, ht.queue, ht.script, ht.select, ht.reading⟩

/-- The worker has moved by itself from the busy stage `v` to `v'`: so has the far end of the
track, unless a RESET lies between. -/
def Settled (q : List Entry) (v v' h h' : Stage) (a a₁ a' : DmaAddress) : Prop :=
  (q = [] ∧ h = v ∧ h' = v' ∧ a' = a₁) ∨ ((∃ e rest, q = e :: rest ∧ e.IsReset) ∧ h' = h ∧ a' = a)

lemma Tracks.settle (s s' : System σ n) {v v' h : Stage} {todo : List BootStep}
    {a a₁ : DmaAddress} (hq : v.Steps s'.bridge.queue h) (hv : v.Busy) (hscript : Follows s.host.script todo h a)
    (hreading : s.host.outstanding ≠ none → ∃ x rest, s.host.script = x :: rest ∧ x.reads ≠ none)
    (hhost : s'.host = s.host) (hw : v'.Holds s'.bridge.card.controller s'.bridge.transfer)
    (hnext : ∀ script, Follows script todo v a → Follows script todo v' a₁)
    (hsel : hasBit s'.bridge.card.cache.control dmaSelectBit = h.selecting)
    (hlow : v'.selecting = false) :
    ∃ h' a', Tracks s' v' h' todo a' ∧ Settled s'.bridge.queue v v' h h' a a₁ a' := by
  rcases hq.of_busy hv with ⟨hnil, rfl⟩ | ⟨hreset, hany⟩
  · have hclear : h.selecting = false := by
      cases h <;> first | rfl | exact hv.elim
    refine ⟨v', a₁, ⟨hw, hnil ▸ .nil v', hhost ▸ hnext _ hscript, ?_, hhost ▸ hreading⟩,
      .inl ⟨hnil, rfl, rfl, rfl⟩⟩
    rw [hsel, hclear, hlow]
  · exact ⟨h, a, ⟨hw, hany v', hhost ▸ hscript, hsel, hhost ▸ hreading⟩, .inr ⟨hreset, rfl, rfl⟩⟩

lemma cell_status {c d : Card σ} {b : Byte} (hd : busyBus d.dma.busCtrl = true)
    (heq : c = { sasiEnterStatusPhase d b with cmdBuffer := [] }) : c.cache.status = phaseStatus := by
  rw [heq]
  show statusRequest d.dma.busCtrl &&& statusMask = phaseStatus
  rw [statusRequest_busy _ hd]
  decide

/-- What a worker step does to the card and to both ends of the track. -/
inductive WorkerMoved (s s' : System σ n) (a₁ : DmaAddress) :
    Stage → Stage → DmaAddress → Stage → Stage → DmaAddress → Prop
  | quiet {w h w' : Stage} {a : DmaAddress} {e : Entry} (he : s.bridge.queue = e :: s'.bridge.queue)
      (hw : ¬ w'.Busy) (hk : Kept s.bridge.card s'.bridge.card)
      (hcells : s'.cell = s.cell ∨ s'.cell = phaseCommand ∧ ∃ t bs, w' = .command t bs) :
      WorkerMoved s s' a₁ w h a w' h a
  | reset {w h : Stage} {a : DmaAddress} {e : Entry} {data : Byte}
      (he : s.bridge.queue = e :: s'.bridge.queue) (hr : e.IsReset)
      (hc : s'.bridge.card = resetCard s.bridge.card data) :
      WorkerMoved s s' a₁ w h a (.free none) h a
  | routedMoving {h : Stage} {a : DmaAddress} {e : Entry} {target : Byte} {bytes cdb : List Byte}
      {d : Card σ} (he : s.bridge.queue = e :: s'.bridge.queue)
      (hd : Ready s.bridge.card d target cdb e)
      (hop : (Opcode.ofByte (cdbByte cdb 0)).Moves)
      (hc : Executed (d.recordRouted cdb) s'.bridge.card)
      (hlog : s'.bridge.card.history = (d.recordRouted cdb).history) :
      WorkerMoved s s' a₁ (.command target bytes) h a (.executing target cdb e.seenAt) h a
  | routedCompleted {h h' : Stage} {a a' : DmaAddress} {e : Entry} {target b : Byte}
      {bytes cdb : List Byte} {d d' : Card σ} (he : s.bridge.queue = e :: s'.bridge.queue)
      (hd : Ready s.bridge.card d target cdb e)
      (hop : (Opcode.ofByte (cdbByte cdb 0)).Finishes s.bridge.card.dma.dmaEnabled)
      (hc : Executed (d.recordRouted cdb) d')
      (heq : s'.bridge.card = { sasiEnterStatusPhase d' b with cmdBuffer := [] })
      (hset : Settled s'.bridge.queue (.executing target cdb e.seenAt) (.status e.seenAt b) h h' a a₁
        a') : WorkerMoved s s' a₁ (.command target bytes) h a (.status e.seenAt b) h' a'
  | routedExpecting {h h' : Stage} {a a' : DmaAddress} {e : Entry} {target : Byte}
      {bytes cdb : List Byte} {d : Card σ} (he : s.bridge.queue = e :: s'.bridge.queue)
      (hd : Ready s.bridge.card d target cdb e)
      (hop : Opcode.ofByte (cdbByte cdb 0) = .driveParams)
      (heq : s'.bridge.card = { expectParameters (d.recordRouted cdb) with cmdBuffer := [] })
      (hset : Settled s'.bridge.queue (.executing target cdb e.seenAt) .stranded h h' a a₁ a') :
      WorkerMoved s s' a₁ (.command target bytes) h a .stranded h' a'
  | moved {h : Stage} {a : DmaAddress} {target : Byte} {cdb : List Byte} {τ : ℕ}
      (hq : s'.bridge.queue = s.bridge.queue)
      (hreset : s.bridge.card.dma.resetRequested = false)
      (hc : Executed s.bridge.card s'.bridge.card) :
      WorkerMoved s s' a₁ (.executing target cdb τ) h a (.executing target cdb τ) h a
  | abandoned {h h' : Stage} {a a' : DmaAddress} {target : Byte} {cdb : List Byte} {τ : ℕ}
      (hq : s'.bridge.queue = s.bridge.queue)
      (hreset : s.bridge.card.dma.resetRequested = true)
      (heq : s'.bridge.card = { s.bridge.card with cmdBuffer := [] })
      (hset : Settled s'.bridge.queue (.executing target cdb τ) .stranded h h' a a₁ a') :
      WorkerMoved s s' a₁ (.executing target cdb τ) h a .stranded h' a'
  | completed {h h' : Stage} {a a' : DmaAddress} {target b : Byte} {cdb : List Byte} {τ : ℕ}
      {d : Card σ} (hq : s'.bridge.queue = s.bridge.queue)
      (hreset : s.bridge.card.dma.resetRequested = false) (hc : Executed s.bridge.card d)
      (heq : s'.bridge.card = { sasiEnterStatusPhase d b with cmdBuffer := [] })
      (hset : Settled s'.bridge.queue (.executing target cdb τ) (.status τ b) h h' a a₁ a') :
      WorkerMoved s s' a₁ (.executing target cdb τ) h a (.status τ b) h' a'

/-- The worker never touches what the handler counts. -/
lemma workerStep_counters (reg : Registry Io σ) {b b' : Bridge σ n} {io : SectorIo Io}
    (hs : b.workerStep reg io = some b') :
    b'.fifoEntries = b.fifoEntries ∧ b'.drops = b.drops := by
  unfold Bridge.workerStep at hs
  split at hs
  · cases hs
    unfold Bridge.afterBoundary
    split <;> exact ⟨rfl, rfl⟩
  · cases hs
  · cases hs
    exact ⟨rfl, rfl⟩

/-- A worker step seen from both ends of the queue; `a₁` is the address it may have left. -/
def WorkerOutcome (s s' : System σ n) (w h : Stage) (todo : List BootStep) (a a₁ : DmaAddress) :
    Prop :=
  ∃ w' h' a', Tracks s' w' h' todo a' ∧ WorkerMoved s s' a₁ w h a w' h' a'

section Worker

variable (reg : Registry Io σ) {s : System σ n} {w h : Stage} {todo : List BootStep}
  {a a₁ : DmaAddress}

lemma Follows.to_status {τ τ' : ℕ} {target b : Byte} {cdb : List Byte} (ha₁ : a₁.top = 0)
    (script : List Access) (hf : Follows script todo (.executing target cdb τ) a) :
    Follows script todo (.status τ' b) a₁ := hf.status trivial τ' b ha₁

lemma Follows.to_stranded {τ : ℕ} {target : Byte} {cdb : List Byte} (script : List Access)
    (hf : Follows script todo (.executing target cdb τ) a) : Follows script todo .stranded a₁ :=
  hf.busy trivial trivial

lemma workerStep_boundary {b b' : Bridge σ n} {io : SectorIo Io} {t : Transfer}
    (htr : b.transfer = some t) (hs : b.workerStep reg io = some b') :
    b' = b.afterBoundary (transferStep reg io b.card t) := by
  unfold Bridge.workerStep at hs
  rw [htr] at hs
  exact (Option.some.inj hs).symm

lemma workerStep_entry {b b' : Bridge σ n} {io : SectorIo Io} (htr : b.transfer = none)
    (hs : b.workerStep reg io = some b') :
    ∃ e rest, b.queue = e :: rest ∧ b' = b.afterEntry rest (deferProcessEntry io b.card e) := by
  unfold Bridge.workerStep at hs
  rw [htr] at hs
  split at hs
  next h => cases h
  · cases hs
  next e rest _ hq => exact ⟨e, rest, hq, (Option.some.inj hs).symm⟩

/-- The worker at a sector boundary. -/
lemma Tracks.boundary (ht : Tracks s w h todo a) (io : SectorIo Io) {t : Transfer}
    (htr : s.bridge.transfer = some t) (ha₁ : a₁.top = 0) :
    WorkerOutcome s { s with bridge := s.bridge.afterBoundary (transferStep reg io s.bridge.card t) }
      w h todo a a₁ := by
  have hw := ht.worker
  rw [htr] at hw
  cases hw with | executing hworks haddr =>
  have hq := ht.queue
  have hbound := transferStep_boundary reg io s.bridge.card haddr
  generalize transferStep reg io s.bridge.card t = r at hbound ⊢
  cases hbound with
  | abandoned hreset =>
    obtain ⟨h', a', ht', hset⟩ := Tracks.settle s
      ({ s with bridge := s.bridge.afterBoundary (s.bridge.card, none) })
      hq trivial ht.script ht.reading rfl (.stranded hworks.busy)
      (fun script hf => Follows.to_stranded script hf) ht.select rfl
    exact ⟨_, h', a', ht', .abandoned rfl hreset rfl hset⟩
  | moved hreset hexec haddr' =>
    refine ⟨_, h, a, ⟨.executing (hexec.works hworks) haddr', hq, ht.script, ?_, ht.reading⟩,
      .moved rfl hreset hexec⟩
    exact (congrArg (hasBit · dmaSelectBit) hexec.control).trans ht.select
  | @completed d b hreset hexec =>
    obtain ⟨h', a', ht', hset⟩ := Tracks.settle s
      ({ s with bridge := s.bridge.afterBoundary (sasiEnterStatusPhase d b, none) })
      hq trivial ht.script ht.reading rfl (enterStatus_holds (hexec.works hworks) b)
      (fun script hf => Follows.to_status ha₁ script hf)
      ((congrArg (hasBit · dmaSelectBit) hexec.control).trans ht.select) rfl
    exact ⟨_, h', a', ht', .completed rfl hreset hexec rfl hset⟩

/-- The worker with the next queue entry. -/
lemma Tracks.entry (ht : Tracks s w h todo a) (io : SectorIo Io) {e : Entry} {rest : List Entry}
    (htr : s.bridge.transfer = none) (hqueue : s.bridge.queue = e :: rest) (ha₁ : a₁.top = 0) :
    WorkerOutcome s
      { s with bridge := s.bridge.afterEntry rest (deferProcessEntry io s.bridge.card e) }
      w h todo a a₁ := by
  have hw := ht.worker
  have hq := ht.queue
  rw [htr] at hw
  rw [hqueue] at hq
  obtain ⟨w', hstep, hq'⟩ : ∃ w', w.Step e w' ∧ w'.Steps rest h := by
    cases hq with | cons hstep hq' => exact ⟨_, hstep, hq'⟩
  have htaken := deferProcessEntry_taken io hw hstep
  generalize deferProcessEntry io s.bridge.card e = r at htaken ⊢
  cases htaken with
  | quiet hw' hbusy hk hcells =>
    refine ⟨w', h, a, ⟨hw', hq', ht.script, ?_, ht.reading⟩, .quiet hqueue hbusy hk hcells⟩
    exact (congrArg (hasBit · dmaSelectBit) hk.control).trans ht.select
  | reset he hr hsel =>
    refine ⟨_, h, a, ⟨.free ⟨rfl, hsel, rfl, rfl, rfl⟩ (by simp), hq', ht.script, ht.select,
      ht.reading⟩, .reset hqueue ⟨_, he, hr⟩ rfl⟩
  | routed hd hr =>
    rename_i d target cdb r
    obtain ⟨bytes, rfl⟩ : ∃ bytes, w = .command target bytes := by
      cases hstep
      exact ⟨_, rfl⟩
    have hsel : hasBit d.cache.control dmaSelectBit = h.selecting := by rw [hd.control, ht.select]
    cases hr with
    | moving hop hexec hlog haddr =>
      refine ⟨_, h, a, ⟨.executing (hexec.works hd.works) haddr, hq', ht.script, ?_, ht.reading⟩,
        .routedMoving hqueue hd hop hexec hlog⟩
      exact (congrArg (hasBit · dmaSelectBit) hexec.control).trans hsel
    | completed b hop hexec =>
      rename_i d'
      obtain ⟨h', a', ht', hset⟩ := Tracks.settle s
        ({ s with bridge :=
          s.bridge.afterEntry rest (afterRoute (sasiEnterStatusPhase d' b, none)) })
        hq' trivial ht.script ht.reading rfl (enterStatus_holds (hexec.works hd.works) b)
        (fun script hf => Follows.to_status ha₁ script hf)
        ((congrArg (hasBit · dmaSelectBit) hexec.control).trans hsel) rfl
      exact ⟨_, h', a', ht', .routedCompleted hqueue hd (hd.dmaEnabled ▸ hop) hexec rfl hset⟩
    | expecting hop =>
      have hbus : busyBus (dataOutRequest d.dma.busCtrl) = true := by
        have hbusy : busyBus d.dma.busCtrl = true := hd.works.busy
        rw [dataOutRequest_busy _ hbusy]
        decide
      obtain ⟨h', a', ht', hset⟩ := Tracks.settle s
        ({ s with bridge :=
          s.bridge.afterEntry rest (afterRoute (expectParameters (d.recordRouted cdb), none)) })
        hq' trivial ht.script ht.reading rfl (.stranded hbus)
        (fun script hf => Follows.to_stranded script hf) hsel rfl
      exact ⟨_, h', a', ht', .routedExpecting hqueue hd hop rfl hset⟩

/-- One worker step, from either state of the worker. -/
theorem Tracks.worker_step (ht : Tracks s w h todo a) {io : SectorIo Io} {b' : Bridge σ n}
    (hs : s.bridge.workerStep reg io = some b') (ha₁ : a₁.top = 0) :
    WorkerOutcome s { s with bridge := b' } w h todo a a₁ := by
  cases htr : s.bridge.transfer with
  | some t =>
    rw [workerStep_boundary reg htr hs]
    exact ht.boundary reg io htr ha₁
  | none =>
    obtain ⟨e, rest, hqueue, rfl⟩ := workerStep_entry reg htr hs
    exact ht.entry io htr hqueue ha₁

end Worker

end PicoV9k.Sasi
