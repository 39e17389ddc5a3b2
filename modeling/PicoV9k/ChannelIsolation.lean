import PicoV9k.HostAccesses
import PicoV9k.MgmtStream

/-!
# The two channels of the register window

SASI and management share the window, the handler and the cell array. No access at a
management offset reaches the SASI side, and nothing else reaches the management
channel; so its STATUS cell is only ever rebuilt by core 0, and its CMD cell is
written by the handler's echo and by the acknowledgement of a reset alone.
-/
namespace PicoV9k.Sasi
open PicoV9k.Bus PicoV9k.Storage PicoV9k.Mgmt PicoV9k.Scripts PicoV9k.Runs

variable {Io σ : Type} {n : ℕ}

def rawAddress (raw : BitVec 32) : ℕ :=
  if fifoPayloadType raw = 2 then dmaFifoWriteAddress raw else boardFifoReadAddress raw

/-- The access is at offset 0x40 to 0x6F. -/
def ManagementOffset (raw : BitVec 32) : Prop :=
  dmaRegisterBase + 0x40 ≤ rawAddress raw ∧ rawAddress raw ≤ dmaRegisterBase + 0x6F

set_option maxRecDepth 2000 in
lemma management_offsets : ∀ offset < 0x100,
    (Reg.management (regOfAddress (dmaRegisterBase + offset)) = true ↔ 0x40 ≤ offset ∧ offset ≤ 0x6F) := by
  decide

lemma regOfAddress_management (address : ℕ) : Reg.management (regOfAddress address) = true ↔
    dmaRegisterBase + 0x40 ≤ address ∧ address ≤ dmaRegisterBase + 0x6F := by
  by_cases hin : dmaRegisterBase ≤ address ∧ address < dmaRegisterBase + 0x100
  · obtain ⟨offset, rfl⟩ := Nat.exists_eq_add_of_le hin.1
    rw [management_offsets offset (by omega)]
    omega
  · have hout : regOfAddress address = .outside := by
      unfold regOfAddress
      exact if_pos (by omega)
    rw [hout]
    constructor
    · intro h
      cases h
    · intro h
      omega

/-- The register a FIFO word is about. -/
def eventReg : FifoEvent → Reg
  | .prefetch target | .readCommit target | .write target _ => target
  | .unknown => .outside

lemma eventReg_ofRaw (raw : BitVec 32) :
    FifoEvent.ofRaw raw = .unknown ∨ eventReg (.ofRaw raw) = regOfAddress (rawAddress raw) := by
  unfold FifoEvent.ofRaw rawAddress
  split
  next h =>
    rw [h, if_neg (by decide)]
    exact .inr rfl
  next h =>
    rw [h, if_neg (by decide)]
    exact .inr rfl
  next h =>
    rw [h, if_pos rfl]
    exact .inr rfl
  · exact .inl rfl

/-- The SASI side of core 1: the controller with its cells, the defer queue and the transfer. -/
structure SasiSide (σ : Type) where
  card : Card σ
  queue : List Entry
  drops : ℕ
  transfer : Option Transfer

def Bridge.sasiSide (b : Bridge σ n) : SasiSide σ := ⟨b.card, b.queue, b.drops, b.transfer⟩

lemma isr_management (b : Bridge σ n) {event : FifoEvent}
    (h : Reg.management (eventReg event) = true) : (b.isr event).1.sasiSide = b.sasiSide := by
  cases event with
  | prefetch target => cases target <;> first | rfl | cases h
  | readCommit target => cases target <;> first | rfl | cases h
  | write target data => cases target <;> first | rfl | cases h
  | unknown => rfl

lemma isr_chan (b : Bridge σ n) {event : FifoEvent}
    (h : Reg.management (eventReg event) = false) : (b.isr event).1.chan = b.chan := by
  cases event with
  | prefetch target => cases target <;> rfl
  | readCommit target =>
    cases target with
    | data => exact enqueue_chan _ _
    | _ => rfl
  | write target data =>
    cases target with
    | control | data | status | statusAlias => exact enqueue_chan _ _
    | mgmtCmd | mgmtStatus | mgmtResp => cases h
    | _ => rfl
  | unknown => rfl

/-- Accesses at the management offsets leave the SASI side alone. -/
theorem isr_sasiSide (b : Bridge σ n) {raw : BitVec 32} (h : ManagementOffset raw) :
    (b.isr (.ofRaw raw)).1.sasiSide = b.sasiSide := by
  rcases eventReg_ofRaw raw with hu | hr
  · rw [hu]
    rfl
  · exact isr_management b (hr ▸ (regOfAddress_management _).mpr h)

/-- All other accesses leave the management channel and its cells alone. -/
theorem isr_mgmtSide (b : Bridge σ n) {raw : BitVec 32} (h : ¬ ManagementOffset raw) :
    (b.isr (.ofRaw raw)).1.chan = b.chan := by
  rcases eventReg_ofRaw raw with hu | hr
  · rw [hu]
    rfl
  · refine isr_chan b (Bool.eq_false_iff.mpr fun hm => h ?_)
    exact (regOfAddress_management _).mp (hr ▸ hm)

lemma workerStep_chan {reg : Registry Io σ} {io : SectorIo Io} {b b' : Bridge σ n}
    (h : b.workerStep reg io = some b') : b'.chan = b.chan := by
  unfold Bridge.workerStep at h
  split at h
  · cases h
    unfold Bridge.afterBoundary
    split <;> rfl
  · cases h
  · cases h
    rfl

lemma service_chan {b b' : Bridge σ n} {storage : Routing σ} (h : b.service storage = some b') :
    b'.chan = b.chan := by
  unfold Bridge.service at h
  split at h
  · cases h
    rfl
  · cases h

/-- STATUS carries the signature of the channel in its upper half. -/
def Signed (c : MgmtChan n) : Prop := c.status &&& 0xF0 = 0xD0

lemma statusBits_signed : ∀ o f r p : Bool, statusBits o f r p &&& 0xF0 = 0xD0 := by decide

variable {V : Type}

/-- What core 0 does outside the acknowledgement of a reset: it keeps to the channel, keeps STATUS
signed and leaves the CMD cell alone. -/
structure CoreZero (β : Type) (u : Shared n V → β × Shared n V) : Prop where
  side : ∀ s, (u s).2.side = s.side
  signed : ∀ s, Signed s.chan → Signed (u s).2.chan
  echo : ∀ s, (u s).2.chan.cmdEcho = s.chan.cmdEcho

abbrev OfCoreZero {α : Type} (c : Script (Shared n V) α) : Prop := c.Each CoreZero

lemma now_coreZero : OfCoreZero (now : Script (Shared n V) (MgmtChan n)) :=
  .act ⟨fun _ => rfl, fun _ => id, fun _ => rfl⟩ fun _ => trivial

/-- The update leaves the CMD cell alone and STATUS as it is or rebuilt. -/
def Tame (g : MgmtChan n → MgmtChan n) : Prop :=
  ∀ c, (g c).cmdEcho = c.cmdEcho ∧
    ((g c).status = c.status ∨ ∃ o f r p, (g c).status = statusBits o f r p)

lemma onChan_coreZero {g : MgmtChan n → MgmtChan n} (h : Tame g) :
    OfCoreZero (onChan g : Script (Shared n V) Unit) := by
  refine .act ⟨fun _ => rfl, fun s hs => ?_, fun s => (h s.chan).1⟩ fun _ => trivial
  rcases (h s.chan).2 with heq | ⟨o, f, r, p, heq⟩
  · exact (congrArg (· &&& 0xF0) heq).trans hs
  · exact (congrArg (· &&& 0xF0) heq).trans (statusBits_signed o f r p)

/-- An update of other fields than the two cells. -/
lemma plain_coreZero {g : MgmtChan n → MgmtChan n}
    (h : ∀ c, (g c).cmdEcho = c.cmdEcho ∧ (g c).status = c.status) :
    OfCoreZero (onChan g : Script (Shared n V) Unit) :=
  onChan_coreZero fun c => ⟨(h c).1, .inl (h c).2⟩

lemma stored_coreZero {g : MgmtChan n → MgmtChan n} (h : ∀ c, (g c).cmdEcho = c.cmdEcho) :
    OfCoreZero (onChan fun c => (g c).statusStore : Script (Shared n V) Unit) :=
  onChan_coreZero fun c => ⟨h c, .inr ⟨_, _, _, _, rfl⟩⟩

lemma mgmtChanPublish_coreZero : OfCoreZero (mgmtChanPublish : Script (Shared n V) Unit) := by
  refine now_coreZero.bind fun c => ?_
  split
  · split
    · refine Script.Each.bind (plain_coreZero fun c => ⟨rfl, rfl⟩) fun _ => ?_
      exact stored_coreZero fun c => rfl
    · split
      · exact stored_coreZero fun c => rfl
      · exact .pure ()
  · exact .pure ()

lemma latchOverflow_coreZero : OfCoreZero (latchOverflow : Script (Shared n V) Unit) :=
  stored_coreZero fun _ => rfl

lemma respRoom_coreZero (checkReset : Bool) :
    OfCoreZero (respRoom checkReset : Script (Shared n V) Room) := by
  refine .iterate (fun spins => now_coreZero.bind fun c => ?_) 0
  split
  · exact .pure _
  · split
    · exact .pure _
    · refine mgmtChanPublish_coreZero.bind fun _ => now_coreZero.bind fun c => ?_
      split
      · exact .pure _
      · split
        · exact latchOverflow_coreZero.bind fun _ => .pure _
        · exact .pure _

lemma respPush_coreZero (b : Byte) : OfCoreZero (respPush b : Script (Shared n V) Unit) :=
  plain_coreZero fun _ => ⟨rfl, rfl⟩

lemma mgmtChanRespWrite_coreZero (buf : List Byte) :
    OfCoreZero (mgmtChanRespWrite buf : Script (Shared n V) Unit) := by
  induction buf with
  | nil => exact .pure ()
  | cons b buf ih =>
    refine now_coreZero.bind fun c => ?_
    split
    · exact .pure ()
    · refine (respRoom_coreZero false).bind fun r => ?_
      split
      · exact (respPush_coreZero b).bind fun _ => ih
      · exact .pure ()

lemma blobCopy_coreZero (buf : List Byte) : OfCoreZero (blobCopy buf : Script (Shared n V) Bool) := by
  induction buf with
  | nil => exact .pure true
  | cons b buf ih =>
    refine (respRoom_coreZero true).bind fun r => ?_
    split
    · exact (respPush_coreZero b).bind fun _ => ih
    · exact .pure false

lemma blobDrainRound_coreZero (spins : ℕ) :
    OfCoreZero (blobDrainRound spins : Script (Shared n V) (ℕ ⊕ Bool)) := by
  refine now_coreZero.bind fun c => ?_
  split
  · exact .pure _
  · refine now_coreZero.bind fun c => ?_
    split
    · exact .pure _
    · refine now_coreZero.bind fun c => mgmtChanPublish_coreZero.bind fun _ => now_coreZero.bind fun c' => ?_
      split
      · exact .pure _
      · split
        · exact latchOverflow_coreZero.bind fun _ => .pure _
        · exact .pure _

lemma mgmtChanBlobSend_coreZero (buf : List Byte) :
    OfCoreZero (mgmtChanBlobSend buf : Script (Shared n V) Bool) := by
  refine now_coreZero.bind fun c => ?_
  split
  · exact .pure false
  · refine (blobCopy_coreZero buf).bind fun copied => ?_
    split
    · exact .iterate blobDrainRound_coreZero 0
    · exact .pure false

lemma mgmtChanCmdPop_coreZero : OfCoreZero (mgmtChanCmdPop : Script (Shared n V) (Option Byte)) := by
  refine now_coreZero.bind fun c => ?_
  split
  · exact .pure none
  · refine now_coreZero.bind fun c => ?_
    exact Script.Each.bind (plain_coreZero fun _ => ⟨rfl, rfl⟩) fun _ => .pure _

lemma mgmtChanPump_coreZero : OfCoreZero (mgmtChanPump : Script (Shared n V) Unit) := by
  have hspin (spins : ℕ) : OfCoreZero (ackSpinRound spins : Script (Shared n V) (ℕ ⊕ Unit)) := by
    refine now_coreZero.bind fun c => ?_
    split <;> exact .pure _
  have hround (i : ℕ) : OfCoreZero (pumpRound i : Script (Shared n V) (ℕ ⊕ Unit)) := by
    unfold pumpRound
    split
    · exact .pure _
    · refine mgmtChanPublish_coreZero.bind fun _ => now_coreZero.bind fun c => ?_
      split
      · exact .pure _
      · refine (Script.Each.iterate hspin 0).bind fun _ => now_coreZero.bind fun c => ?_
        split <;> exact .pure _
  have hdrain : OfCoreZero (do
      Script.iterate pumpRound 0
      onChan fun c => c.statusStore : Script (Shared n V) Unit) :=
    (Script.Each.iterate hround 0).bind fun _ => stored_coreZero fun _ => rfl
  have hempty : OfCoreZero (do
      let c ← now
      if c.cmd.IsEmpty then
        onChan fun c => { c with cmdFull := false }
      Script.iterate pumpRound 0
      onChan fun c => c.statusStore : Script (Shared n V) Unit) := by
    refine now_coreZero.bind fun c => ?_
    split
    · exact Script.Each.bind (plain_coreZero fun _ => ⟨rfl, rfl⟩) fun _ => hdrain
    · exact hdrain
  refine now_coreZero.bind fun c => ?_
  split
  · exact Script.Each.bind (plain_coreZero fun _ => ⟨rfl, rfl⟩) fun _ => hempty
  · exact hempty

/-- The store that re-arms the CMD cell, with which a serviced reset ends. -/
def acknowledge (s : Shared n V) : Unit × Shared n V :=
  ((), { s with chan := { s.chan with cmdEcho := 0xFF } })

/-- Code that reports a serviced reset exactly when its last action has re-armed the CMD cell. -/
inductive Reports : Script (Shared n V) Bool → Prop
  | done (serviced : Bool) : Reports (pure serviced)
  | never {c : Script (Shared n V) Bool} (hc : OfCoreZero c) (hfalse : c.Returns (· = false)) : Reports c
  | act {β : Type} {u : Shared n V → β × Shared n V} {k : β → Script (Shared n V) Bool}
      (hu : CoreZero β u) (hk : ∀ b, Reports (k b)) (hopen : ∀ b, (k b).result ≠ some true) :
      Reports (.act u k)
  | last : Reports (.act acknowledge fun _ => pure true)

/-- An update of the channel before the last action. -/
lemma Reports.onChan {g : MgmtChan n → MgmtChan n} {k : Unit → Script (Shared n V) Bool}
    (hg : Tame g) (hk : Reports (k ())) (hopen : (k ()).result ≠ some true) :
    Reports (onChan g >>= k) := by
  have h : OfCoreZero (Mgmt.onChan g : Script (Shared n V) Unit) := onChan_coreZero hg
  exact .act h.1 (fun _ => hk) fun _ => hopen

lemma Reports.now {k : MgmtChan n → Script (Shared n V) Bool} (hk : ∀ c, Reports (k c))
    (hopen : ∀ c, (k c).result ≠ some true) : Reports (now >>= k) := by
  have h : OfCoreZero (Mgmt.now : Script (Shared n V) (MgmtChan n)) := now_coreZero
  exact .act h.1 hk hopen

/-- What one step of such code does: the cell shows 0xFF if the step ends a serviced reset, and what
it has shown before otherwise. -/
theorem Reports.step {c c' : Script (Shared n V) Bool} {s s' : Shared n V} (h : Reports c)
    (hs : c.step s = some (c', s')) :
    Reports c' ∧ s'.side = s.side ∧ (Signed s.chan → Signed s'.chan) ∧
      s'.chan.cmdEcho = if c'.result = some true then 0xFF else s.chan.cmdEcho := by
  induction h with
  | done serviced => cases hs
  | @never c hc hfalse =>
    have hreturns := hfalse.step hs
    have hquiet : c'.result ≠ some true := fun htrue => by cases hreturns.result htrue
    refine ⟨.never (hc.step hs) hreturns, ?_⟩
    rw [if_neg hquiet]
    rcases hc.moved hs with rfl | ⟨β, u, hu, rfl⟩
    · exact ⟨rfl, id, rfl⟩
    · exact ⟨hu.side s, hu.signed s, hu.echo s⟩
  | act hu hk hopen _ =>
    cases hs
    refine ⟨hk _, hu.side s, hu.signed s, ?_⟩
    rw [if_neg (hopen _)]
    exact hu.echo s
  | last =>
    cases hs
    exact ⟨.done true, rfl, id, rfl⟩

lemma mgmtChanTakeReset_reports : Reports (mgmtChanTakeReset : Script (Shared n V) Bool) := by
  have hplain {g : MgmtChan n → MgmtChan n} (h : ∀ c, (g c).cmdEcho = c.cmdEcho ∧ (g c).status = c.status) :
      Tame g := fun c => ⟨(h c).1, .inl (h c).2⟩
  have hopen {β : Type} {u : Shared n V → β × Shared n V} {k : β → Script (Shared n V) Bool} :
      (Script.act u k).result ≠ some true := by
    intro h
    cases h
  refine .now (fun c => ?_) fun c => ?_
  · split
    · exact .done false
    · refine .onChan (hplain fun c => ⟨rfl, rfl⟩) (.now (fun c => ?_) fun c => hopen) hopen
      refine .onChan (hplain fun c => ⟨rfl, rfl⟩) ?_ hopen
      refine .onChan (hplain fun c => ⟨rfl, rfl⟩) ?_ hopen
      refine .onChan (hplain fun c => ⟨rfl, rfl⟩) ?_ hopen
      exact .onChan (fun c => ⟨rfl, .inr ⟨_, _, _, _, rfl⟩⟩) .last hopen
  · split
    · intro h
      cases h
    · exact hopen

/-- The calls of core 0, next to anything else it shares with core 1. The result says whether the
call has serviced a reset. -/
def coreZeroCall : Mgmt.Call → Script (Shared n V) Bool
  | .respWrite buf => do
    mgmtChanRespWrite buf
    pure false
  | .blobSend buf => do
    let _ ← mgmtChanBlobSend buf
    pure false
  | .pump => do
    mgmtChanPump
    pure false
  | .takeReset => mgmtChanTakeReset
  | .cmdPop => do
    let _ ← mgmtChanCmdPop
    pure false

/-- A call that is none of a reset. -/
lemma Reports.other {α : Type} {c : Script (Shared n V) α} (h : OfCoreZero c) :
    Reports (c >>= fun _ => pure false) :=
  .never (h.bind fun _ => .pure false) (Script.Returns.bind fun _ => rfl)

theorem coreZeroCall_reports (call : Mgmt.Call) : Reports (coreZeroCall call : Script (Shared n V) Bool) := by
  cases call with
  | respWrite buf => exact .other (mgmtChanRespWrite_coreZero buf)
  | blobSend buf => exact .other (mgmtChanBlobSend_coreZero buf)
  | pump => exact .other mgmtChanPump_coreZero
  | takeReset => exact mgmtChanTakeReset_reports
  | cmdPop => exact .other mgmtChanCmdPop_coreZero

/-- Core 1 without the management channel. -/
structure CoreOne (σ : Type) where
  sasi : SasiSide σ
  pendingPrefetch : ℕ
  fifoEntries : ℕ

def Bridge.shared (b : Bridge σ n) : Shared n (CoreOne σ) :=
  ⟨b.chan, ⟨b.sasiSide, b.pendingPrefetch, b.fifoEntries⟩⟩

def bridgeOf (s : Shared n (CoreOne σ)) : Bridge σ n where
  card := s.side.sasi.card
  queue := s.side.sasi.queue
  drops := s.side.sasi.drops
  transfer := s.side.sasi.transfer
  pendingPrefetch := s.side.pendingPrefetch
  fifoEntries := s.side.fifoEntries
  chan := s.chan

def coreOneStep (reg : Registry Io σ) (s : Shared n (CoreOne σ)) (label : BusLabel Io σ) :
    Option (Shared n (CoreOne σ)) := ((bridgeOf s).step reg label).map Bridge.shared

/-- Both cores, with the last CMD byte the Victor has written since the last serviced reset. -/
structure Channels (σ : Type) (n : ℕ) where
  shared : Shared n (CoreOne σ)
  code : Script (Shared n (CoreOne σ)) Bool
  lastCmd : Option Byte

def Channels.bridge (w : Channels σ n) : Bridge σ n := bridgeOf w.shared

def Channels.initial (hn : 0 < n) (ram : ℕ → Byte) (storage : Routing σ) : Channels σ n :=
  ⟨(Bridge.initial ram storage (.initial hn)).shared, pure false, none⟩

/-- The last CMD byte after a step of core 1. -/
def lastCmdAfter (last : Option Byte) : BusLabel Io σ → Option Byte
  | .fifo (.write .mgmtCmd data) => some data
  | _ => last

/-- Core 0 forgets the last CMD byte with the step in which `mgmt_chan_take_reset` returns true. -/
def Channels.step (reg : Registry Io σ) (w : Channels σ n) :
    Move Mgmt.Call (BusLabel Io σ) → Option (Channels σ n)
  | .core => (w.code.step w.shared).map fun r =>
      ⟨r.2, r.1, if r.1.result = some true then none else w.lastCmd⟩
  | .call c => match w.code with
    | .ret _ => some ⟨w.shared, coreZeroCall c, w.lastCmd⟩
    | _ => none
  | .env label => (coreOneStep reg w.shared label).map fun s =>
      ⟨s, w.code, lastCmdAfter w.lastCmd label⟩

/-- The CMD cell shows the complement of the last CMD byte, or the acknowledged reset. -/
def echoOf : Option Byte → Byte
  | some data => ~~~data
  | none => 0xFF

/-- What keeps the cells of the channel in both cores' hands. -/
structure Channels.Sound (w : Channels σ n) : Prop where
  code : Reports w.code
  signed : Signed w.bridge.chan
  echo : w.bridge.chan.cmdEcho = echoOf w.lastCmd

/-- A FIFO word changes the CMD cell by its echo only, and STATUS never. -/
lemma isr_cells (b : Bridge σ n) (event : FifoEvent) :
    (b.isr event).1.chan.status = b.chan.status ∧
      ((∃ data, event = .write .mgmtCmd data ∧ (b.isr event).1.chan.cmdEcho = ~~~data) ∨
        ((∀ data, event ≠ .write .mgmtCmd data) ∧ (b.isr event).1.chan.cmdEcho = b.chan.cmdEcho)) := by
  by_cases h : Reg.management (eventReg event) = true
  · cases event with
    | write target data =>
      cases target with
      | mgmtCmd =>
        have heq : (b.isr (.write .mgmtCmd data)).1.chan = (mgmtChanRegWrite b.chan .mgmtCmd data).1 := rfl
        rw [heq, mgmtChanRegWrite_eq]
        exact ⟨rfl, .inl ⟨data, rfl, rfl⟩⟩
      | mgmtStatus | mgmtResp => exact ⟨rfl, .inr ⟨fun _ h => (by cases h), rfl⟩⟩
      | _ => cases h
    | prefetch target =>
      have hsame : (b.isr (.prefetch target)).1.chan = b.chan := by cases target <;> rfl
      rw [hsame]
      exact ⟨rfl, .inr ⟨fun _ h => (by cases h), rfl⟩⟩
    | readCommit target =>
      have hsame : (b.isr (.readCommit target)).1.chan = b.chan := by
        cases target <;> first | rfl | cases h
      rw [hsame]
      exact ⟨rfl, .inr ⟨fun _ h => (by cases h), rfl⟩⟩
    | unknown => cases h
  · have hsame := isr_chan b (Bool.eq_false_iff.mpr h)
    rw [hsame]
    refine ⟨rfl, .inr ⟨fun data he => h ?_, rfl⟩⟩
    rw [he]
    rfl

lemma Channels.Sound.core {reg : Registry Io σ} {w w' : Channels σ n} (h : w.Sound)
    (hs : w.step reg .core = some w') : w'.Sound ∧ w'.bridge.sasiSide = w.bridge.sasiSide := by
  obtain ⟨⟨code, shared⟩, hr, rfl⟩ := Option.map_eq_some_iff.mp hs
  obtain ⟨hcode, hside, hsigned, hecho⟩ := h.code.step hr
  refine ⟨⟨hcode, hsigned h.signed, ?_⟩, ?_⟩
  · show shared.chan.cmdEcho = echoOf (if code.result = some true then none else w.lastCmd)
    rw [hecho]
    split
    · rfl
    · exact h.echo
  · show shared.side.sasi = w.shared.side.sasi
    rw [hside]

lemma Channels.Sound.coreOne {reg : Registry Io σ} {w w' : Channels σ n} {label : BusLabel Io σ}
    (h : w.Sound) (hs : w.step reg (.env label) = some w') : w'.Sound := by
  obtain ⟨shared, hshared, rfl⟩ := Option.map_eq_some_iff.mp hs
  obtain ⟨b, hb, rfl⟩ := Option.map_eq_some_iff.mp hshared
  cases label with
  | fifo event =>
    cases hb
    obtain ⟨hstatus, hcmd⟩ := isr_cells w.bridge event
    refine ⟨h.code, (congrArg (· &&& 0xF0) hstatus).trans h.signed, ?_⟩
    show (w.bridge.isr event).1.chan.cmdEcho = echoOf (lastCmdAfter w.lastCmd (.fifo event : BusLabel Io σ))
    rcases hcmd with ⟨data, rfl, heq⟩ | ⟨hne, heq⟩
    · exact heq
    · rw [heq]
      unfold lastCmdAfter
      split
      next he => exact absurd (BusLabel.fifo.inj he) (hne _)
      · exact h.echo
  | worker io =>
    have hchan : b.chan = w.bridge.chan := workerStep_chan hb
    exact ⟨h.code, (congrArg Signed hchan).mpr h.signed, (congrArg MgmtChan.cmdEcho hchan).trans h.echo⟩
  | service storage =>
    have hchan : b.chan = w.bridge.chan := service_chan hb
    exact ⟨h.code, (congrArg Signed hchan).mpr h.signed, (congrArg MgmtChan.cmdEcho hchan).trans h.echo⟩

theorem Channels.Sound.step {reg : Registry Io σ} {w w' : Channels σ n}
    {move : Move Mgmt.Call (BusLabel Io σ)} (h : w.Sound) (hs : w.step reg move = some w') : w'.Sound := by
  cases move with
  | core => exact (h.core hs).1
  | call c =>
    simp only [Channels.step] at hs
    split at hs
    · cases hs
      exact ⟨coreZeroCall_reports c, h.signed, h.echo⟩
    · cases hs
  | env label => exact h.coreOne hs

/-- What each step of core 1 leaves alone. -/
structure Bridge.Isolated (reg : Registry Io σ) (b : Bridge σ n) : Prop where
  management : ∀ raw, ManagementOffset raw → (b.isr (.ofRaw raw)).1.sasiSide = b.sasiSide
  host : ∀ raw, ¬ ManagementOffset raw → (b.isr (.ofRaw raw)).1.chan = b.chan
  worker : ∀ io b', b.workerStep reg io = some b' → b'.chan = b.chan
  service : ∀ storage b', b.service storage = some b' → b'.chan = b.chan

lemma Bridge.isolated (reg : Registry Io σ) (b : Bridge σ n) : b.Isolated reg where
  management _ h := isr_sasiSide b h
  host _ h := isr_mgmtSide b h
  worker _ _ h := workerStep_chan h
  service _ _ h := service_chan h

/-- In every interleaving the two channels keep to their own sides; STATUS keeps its signature and
the CMD cell the complement of the last byte, or 0xFF since the last serviced reset. -/
theorem channels_isolated (reg : Registry Io σ) (hn : 0 < n) {ram : ℕ → Byte} {storage : Routing σ}
    {moves : List (Move Mgmt.Call (BusLabel Io σ))} {w : Channels σ n}
    (h : Run (Channels.step reg) (.initial hn ram storage) moves w) :
    w.bridge.Isolated reg ∧
      (∀ w', w.step reg .core = some w' → w'.bridge.sasiSide = w.bridge.sasiSide) ∧
      w.bridge.chan.status &&& 0xF0 = 0xD0 ∧ w.bridge.chan.cmdEcho = echoOf w.lastCmd := by
  have hstep (v : Channels σ n) (move : Move Mgmt.Call (BusLabel Io σ)) (v' : Channels σ n) (hv : v.Sound)
      (_ : True) (hs : v.step reg move = some v') : v'.Sound := hv.step hs
  have hstart : (Channels.initial hn ram storage).Sound :=
    ⟨.done false, (by decide : mgmtChanSig &&& 0xF0 = 0xD0), rfl⟩
  have hw := h.invariant hstep hstart
  exact ⟨w.bridge.isolated reg, fun w' hs => (hw.core hs).2, hw.signed, hw.echo⟩

/-- The Victor writes a CMD byte and a reset, which core 0 takes. -/
def resetServiced : List (Move Mgmt.Call (BusLabel Unit Unit)) :=
  [.env (.fifo (.write .mgmtCmd 0x12)), .env (.fifo (.write .mgmtStatus 0)), .call .takeReset] ++
    List.replicate 8 .core

/-- Before the last step of core 0 the cell still echoes the byte. -/
theorem channels_isolated_reset :
    (∃ w : Channels Unit 2, Run (Channels.step fun _ => none)
        (.initial (by decide) (fun _ => 0) (.initial ())) resetServiced.dropLast w ∧
      w.lastCmd = some 0x12 ∧ w.bridge.chan.cmdEcho = 0xED) ∧
    ∃ w : Channels Unit 2, Run (Channels.step fun _ => none)
        (.initial (by decide) (fun _ => 0) (.initial ())) resetServiced w ∧
      w.lastCmd = none ∧ w.bridge.chan.cmdEcho = 0xFF := by
  have hreached (moves : List (Move Mgmt.Call (BusLabel Unit Unit))) {w : Channels Unit 2}
      {last : Option Byte} (hw : follow (Channels.step fun _ => none) (fun _ _ => True)
        (.initial (by decide) (fun _ => 0) (.initial ())) moves = some w) (hlast : w.lastCmd = last) :
      ∃ w : Channels Unit 2, Run (Channels.step fun _ => none)
          (.initial (by decide) (fun _ => 0) (.initial ())) moves w ∧
        w.lastCmd = last ∧ w.bridge.chan.cmdEcho = echoOf last := by
    have hrun := Guarded.of_follow hw
    exact ⟨w, hrun, hlast, hlast ▸ (channels_isolated _ _ hrun).2.2.2⟩
  exact ⟨hreached _ rfl rfl, hreached _ rfl rfl⟩

end PicoV9k.Sasi
