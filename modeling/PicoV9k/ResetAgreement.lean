import PicoV9k.PhaseWorker

/-!
# STATUS and the bus under RESET

The handler clears the cells of STATUS when the host writes RESET, and the worker clears them
once more when it takes the entry. The host is watched with what it last read from STATUS
and with whether it has moved SELECT since its last RESET: as long as it has not, the second
clearing changes nothing, and whenever the worker is done the cells show the bus.
-/
namespace PicoV9k.Sasi
open PicoV9k.Bus PicoV9k.Storage PicoV9k.Mgmt PicoV9k.Runs

variable {Io σ : Type} {n : ℕ}

/-- Core 1 with the STATUS the host last read, and whether SELECT has moved since its last RESET. -/
structure Watch (σ : Type) (n : ℕ) where
  bridge : Bridge σ n
  seen : Option Byte
  moved : Bool

def Watch.initial (ram : ℕ → Byte) (storage : Routing σ) (chan : MgmtChan n) : Watch σ n :=
  ⟨.initial ram storage chan, none, false⟩

/-- A write of CONTROL moves SELECT. -/
def Bridge.movesSelect (b : Bridge σ n) (data : Byte) : Bool :=
  hasBit data dmaSelectBit != hasBit b.card.cache.control dmaSelectBit

def Watch.seenAfter (s : Watch σ n) : FifoEvent → Option Byte
  | .prefetch .status => some s.bridge.card.cache.status
  | .prefetch .statusAlias => some s.bridge.card.cache.statusAlias
  | _ => s.seen

def Watch.movedAfter (s : Watch σ n) : FifoEvent → Bool
  | .write .control data => !hasBit data dmaResetBit && (s.moved || s.bridge.movesSelect data)
  | _ => s.moved

def Watch.step (reg : Registry Io σ) (s : Watch σ n) : BusLabel Io σ → Option (Watch σ n)
  | .fifo event => some ⟨(s.bridge.isr event).1, s.seenAfter event, s.movedAfter event⟩
  | .worker io => (s.bridge.workerStep reg io).map fun b => { s with bridge := b }
  | .service storage => (s.bridge.service storage).map fun b => { s with bridge := b }

/-- STATUS in the status phase and in the message phase. -/
def OffersAnswer (status : Byte) : Prop := status = statusMask &&& ~~~sasiMsgBit ∨ status = statusMask

instance (status : Byte) : Decidable (OffersAnswer status) := inferInstanceAs (Decidable (_ ∨ _))

/-- The host leaves STATUS alone, reads DATA after an answer and raises SELECT after a free bus; it
may write RESET at any time. -/
def Watch.Follows (s : Watch σ n) : FifoEvent → Prop
  | .readCommit .data => s.seen = some (statusMask &&& ~~~sasiMsgBit) ∨ s.seen = some statusMask
  | .write .control data => hasBit data dmaResetBit = false → hasBit data dmaSelectBit = true →
    s.bridge.movesSelect data = true → s.seen = some 0x00
  | .write .status _ | .write .statusAlias _ => False
  | _ => True

/-- What it writes and reads fits the queue. -/
def Watch.Admits (s : Watch σ n) : BusLabel Io σ → Prop
  | .fifo event => (isDeferred event = true → s.bridge.Room) ∧ s.Follows event
  | _ => True

/-- The worker takes a RESET before the host moves SELECT again, SELECT rises while STATUS still
shows a free bus, and no DATA read is queued behind bytes that could bring its answer. -/
def Watch.Timely (s : Watch σ n) : BusLabel Io σ → Prop
  | .fifo (.readCommit .data) => s.bridge.card.cache.status = 0x00 ∨ OffersAnswer s.bridge.card.cache.status ∨
    s.bridge.transfer = none ∧ ∀ e ∈ s.bridge.queue, notData e.event = true
  | .fifo (.write .control data) => hasBit data dmaResetBit = false → hasBit data dmaSelectBit = true →
    s.bridge.movesSelect data = true → s.bridge.card.cache.status = 0x00
  | .worker _ => s.bridge.transfer = none → ∀ e ∈ s.bridge.queue.head?, isResetWrite e.event = true → s.moved = false
  | _ => True

variable {w h : Phase} {c : Card σ} {t : Option Transfer} {q : List Entry}

lemma Phase.Holds.of_controller {c' : Card σ} (hw : w.Holds c t) (hk : c'.controller = c.controller) :
    w.Holds c' t := by
  have hbus : c'.dma.busCtrl = c.dma.busCtrl := congrArg Controller.busCtrl hk
  have hcontrol : c'.dma.control = c.dma.control := congrArg Controller.control hk
  have hreq : c'.dma.nonDmaReq = c.dma.nonDmaReq := congrArg Controller.nonDmaReq hk
  have hlist : c'.dma.dataOutExpected = c.dma.dataOutExpected := congrArg Controller.dataOutExpected hk
  have hpending : c'.dma.statusPending = c.dma.statusPending := congrArg Controller.statusPending hk
  exact ⟨hk ▸ hw.tidy, hbus ▸ hw.bus, hcontrol ▸ hw.select, hw.moving, by rw [hreq, hlist]; exact hw.quiet,
    hpending ▸ hw.pending⟩

/-- In a command STATUS shows neither a free bus nor an answer. -/
lemma Phase.Shows.busy_cell (hw : w.Holds c t) (hshows : w.Shows h c) (hb : h.Busy) :
    c.cache.status ≠ 0 ∧ ¬ OffersAnswer c.cache.status ∧ hasBit c.cache.status sasiMsgBit = false ∧
      c.cache.status &&& (sasiCtlBit ||| sasiInpBit) ≠ sasiCtlBit ||| sasiInpBit := by
  have hasked : ∀ b : Byte, hasBit b sasiBsyBit = true → hasBit b sasiMsgBit = false →
      b &&& phaseMask ≠ sasiCtlBit ||| sasiInpBit → b &&& statusMask ≠ 0 ∧ ¬ OffersAnswer (b &&& statusMask) ∧
        hasBit (b &&& statusMask) sasiMsgBit = false ∧
        (b &&& statusMask) &&& (sasiCtlBit ||| sasiInpBit) ≠ sasiCtlBit ||| sasiInpBit := by decide
  have hpredicted : (sasiBsyBit ||| sasiReqBit ||| sasiCtlBit : Byte) ≠ 0 ∧
      ¬ OffersAnswer (sasiBsyBit ||| sasiReqBit ||| sasiCtlBit) ∧
      hasBit (sasiBsyBit ||| sasiReqBit ||| sasiCtlBit) sasiMsgBit = false ∧
      (sasiBsyBit ||| sasiReqBit ||| sasiCtlBit : Byte) &&& (sasiCtlBit ||| sasiInpBit) ≠
        sasiCtlBit ||| sasiInpBit := by
    decide
  have hcell : (w.Busy → c.Synced) ∧ (¬ w.Busy → c.cache.status = sasiBsyBit ||| sasiReqBit ||| sasiCtlBit) := by
    rcases hb with rfl | rfl <;> exact hshows
  by_cases hwb : w.Busy
  · have hsync : c.cache.status = c.dma.busCtrl &&& statusMask := hcell.1 hwb
    have hbus := hw.bus
    rw [hsync]
    rcases hwb with rfl | rfl
    · exact hasked _ hbus.1 hbus.2.1 hbus.2.2
    · exact hasked _ hbus.1 hbus.2.1 hbus.2.2
  · rw [hcell.2 hwb]
    exact hpredicted

/-- A free bus on STATUS is one in the host's phase. -/
lemma Phase.Shows.free (hw : w.Holds c t) (hshows : w.Shows h c) (h0 : c.cache.status = 0x00) :
    ∃ select, h = .idle select := by
  have hnone : sasiBsyBit ≠ 0 ∧ statusMask &&& ~~~sasiMsgBit ≠ 0 ∧ statusMask ≠ 0 := by decide
  cases h with
  | idle select => exact ⟨select, rfl⟩
  | selected => exact absurd (Eq.trans (Eq.symm hshows) h0) hnone.1
  | waiting => exact absurd h0 (hshows.busy_cell hw (.inl rfl)).1
  | taking => exact absurd h0 (hshows.busy_cell hw (.inr rfl)).1
  | status => exact absurd (Eq.trans (Eq.symm hshows) h0) hnone.2.1
  | message => exact absurd (Eq.trans (Eq.symm hshows) h0) hnone.2.2

/-- Without a RESET in the queue the worker is on its way to the phase of the host. -/
structure Watch.Caught (s : Watch σ n) (w h : Phase) : Prop where
  holds : w.Holds s.bridge.card s.bridge.transfer
  path : w.Path s.bridge.queue h
  shows : w.Shows h s.bridge.card
  select : hasBit s.bridge.card.cache.control dmaSelectBit = h.select
  requested : s.bridge.card.dma.resetRequested = false

/-- What the host does to the cells while the controller stays as it is. -/
lemma Phase.Shows.of_isr {b : Bridge σ n} (hshows : w.Shows h b.card) {event : FifoEvent}
    (hcell : (b.isr event).1.card.cache.status = b.card.cache.status) : w.Shows h (b.isr event).1.card :=
  hshows.of_cell hcell fun _ hsync => hcell.trans
    (hsync.trans (congrArg (fun k => k.busCtrl &&& statusMask) (isr_controller b event)).symm)

variable {s : Watch σ n} {event : FifoEvent}

/-- The state after a word that is no RESET. -/
abbrev Watch.after (s : Watch σ n) (event : FifoEvent) : Watch σ n :=
  ⟨(s.bridge.isr event).1, s.seenAfter event, s.movedAfter event⟩

lemma Watch.Caught.requested_after (hc : s.Caught w h) (hr : isResetWrite event = false) :
    (s.after event).bridge.card.dma.resetRequested = false := by
  rw [isr_resetRequested, hr, Bool.false_or]
  exact hc.requested

lemma Watch.Caught.aside (hc : s.Caught w h) (hd : isDeferred event = false) : (s.after event).Caught w h := by
  have hr : isResetWrite event = false := by
    cases event with
    | write target data => cases target <;> first | rfl | cases hd
    | _ => rfl
  obtain ⟨hstatus, hcontrol⟩ := isr_aside s.bridge hd
  refine ⟨?_, ?_, hc.shows.of_isr hstatus, ?_, hc.requested_after hr⟩
  · rw [isr_transfer]
    exact hc.holds.of_controller (isr_controller s.bridge event)
  · rw [isr_queue, if_neg fun hq => Bool.false_ne_true (hd.symm.trans hq.1)]
    exact hc.path
  · rw [hcontrol]
    exact hc.select

/-- A queued word lengthens the path. -/
lemma Watch.Caught.queued (hc : s.Caught w h) {u v h' : Phase} (hu : u.Holds s.bridge.card s.bridge.transfer)
    (hpath : u.Path s.bridge.queue v) (hd : isDeferred event = true) (hroom : s.bridge.Room)
    (hstep : Phase.Step v event h') (hshows : u.Shows h' (s.after event).bridge.card)
    (hselect : hasBit (s.after event).bridge.card.cache.control dmaSelectBit = h'.select) :
    (s.after event).Caught u h' := by
  refine ⟨?_, ?_, hshows, hselect, hc.requested_after hstep.not_reset⟩
  · rw [isr_transfer]
    exact hu.of_controller (isr_controller s.bridge event)
  · rw [isr_queue, if_pos ⟨hd, hroom⟩]
    exact hpath.snoc _ hstep

lemma Watch.Caught.data (hc : s.Caught w h) (hroom : s.bridge.Room) (data : Byte) :
    ∃ h', (s.after (.write .data data)).Caught w h' := by
  have hcells := isr_data_cache s.bridge data
  have hcell := congrArg CachedRegs.status hcells
  have hcontrol := congrArg CachedRegs.control hcells
  have hsame (h' : Phase) (hstep : Phase.Step h (.write .data data) h') (hsel : h'.select = h.select)
      (hshows : w.Shows h' s.bridge.card) : (s.after (.write .data data)).Caught w h' := by
    refine hc.queued hc.holds hc.path rfl hroom hstep (hshows.of_isr hcell) ?_
    rw [hcontrol, hsel]
    exact hc.select
  by_cases hwaits : h = .waiting
  · subst hwaits
    exact ⟨.taking, hsame .taking (.firstByte data) rfl hc.shows⟩
  · exact ⟨h, hsame h (.byte data hwaits) rfl hc.shows⟩

/-- SELECT falls when the controller has not come to the command yet. -/
lemma Phase.Path.not_busy (hpath : w.Path q h) (hh : ¬ h.Busy) : ¬ w.Busy := mt hpath.of_busy hh

lemma Watch.Caught.control (hc : s.Caught w h) (hroom : s.bridge.Room) {data : Byte}
    (hr : hasBit data dmaResetBit = false)
    (hfree : hasBit data dmaSelectBit = true → s.bridge.movesSelect data = true →
      s.bridge.card.cache.status = 0x00) :
    ∃ h', (s.after (.write .control data)).Caught w h' := by
  have hcells := isr_control_cache s.bridge hr
  have hcontrol : hasBit (s.after (.write .control data)).bridge.card.cache.control dmaSelectBit =
      hasBit data dmaSelectBit := by
    rw [hcells, predicted_cacheControl]
  by_cases hsame : hasBit data dmaSelectBit = hasBit s.bridge.card.cache.control dmaSelectBit
  · have hcell := congrArg CachedRegs.status (hcells.trans (predicted_plain hr hsame))
    exact ⟨h, hc.queued hc.holds hc.path rfl hroom (.configure hr (hsame.trans hc.select)) (hc.shows.of_isr hcell)
      (hcontrol.trans (hsame.trans hc.select))⟩
  have hmoves : s.bridge.movesSelect data = true := bne_iff_ne.mpr hsame
  cases hs : hasBit data dmaSelectBit with
  | true =>
    have hlow : hasBit s.bridge.card.cache.control dmaSelectBit = false := by
      by_contra hhigh
      exact hsame (hs.trans (Bool.eq_true_of_not_eq_false hhigh).symm)
    obtain ⟨select, rfl⟩ := hc.shows.free hc.holds (hfree hs hmoves)
    obtain rfl : select = false := hc.select.symm.trans hlow
    have hcell := congrArg CachedRegs.status (hcells.trans (predicted_select hr hs hlow))
    exact ⟨.selected, hc.queued hc.holds hc.path rfl hroom (.select hr hs) hcell (hcontrol.trans hs)⟩
  | false =>
    have hhigh : hasBit s.bridge.card.cache.control dmaSelectBit = true := by
      by_contra hlow
      exact hsame (hs.trans (Bool.eq_false_of_not_eq_true hlow).symm)
    have hselected : h = .idle true ∨ h = .selected := by
      have hsel : h.select = true := hc.select.symm.trans hhigh
      cases h with
      | idle select =>
        obtain rfl : select = true := hsel
        exact .inl rfl
      | selected => exact .inr rfl
      | _ => cases hsel
    have hb : ¬ w.Busy := hc.path.not_busy (by rcases hselected with rfl | rfl <;> simp [Phase.Busy])
    have hcell := congrArg CachedRegs.status (hcells.trans (predicted_release hr hs hhigh))
    exact ⟨.waiting, hc.queued hc.holds hc.path rfl hroom (.release hr hs hselected)
      ⟨fun hb' => absurd hb' hb, fun _ => hcell⟩ (hcontrol.trans hs)⟩

lemma dataRead_unanswered {r : CachedRegs} (hmsg : hasBit r.status sasiMsgBit = false)
    (hphase : r.status &&& (sasiCtlBit ||| sasiInpBit) ≠ sasiCtlBit ||| sasiInpBit) : CachedRegs.dataRead r = r := by
  unfold CachedRegs.dataRead
  rw [if_neg (Bool.eq_false_iff.mp hmsg), if_neg hphase]

/-- The worker has not taken the first byte of the command that the host has not written. -/
lemma Phase.Holds.rewaits (hw : Phase.taking.Holds c none) : Phase.waiting.Holds c none :=
  ⟨hw.tidy, hw.bus, hw.select, fun h => (by cases h), fun h => (by cases h), fun h => (by cases h)⟩

lemma Watch.Caught.read (hc : s.Caught w h) (hroom : s.bridge.Room)
    (htimely : s.bridge.card.cache.status = 0x00 ∨ OffersAnswer s.bridge.card.cache.status ∨
      s.bridge.transfer = none ∧ ∀ e ∈ s.bridge.queue, notData e.event = true) :
    ∃ u h', (s.after (.readCommit .data)).Caught u h' := by
  have hcells := isr_commit_cache s.bridge
  have hselect (h' : Phase) (hsel : h'.select = h.select) :
      hasBit (s.after (.readCommit .data)).bridge.card.cache.control dmaSelectBit = h'.select := by
    rw [hcells, dataRead_cacheControl, hsel]
    exact hc.select
  have hquiet (hmsg : hasBit s.bridge.card.cache.status sasiMsgBit = false)
      (hphase : s.bridge.card.cache.status &&& (sasiCtlBit ||| sasiInpBit) ≠ sasiCtlBit ||| sasiInpBit) :=
    congrArg CachedRegs.status (hcells.trans (dataRead_unanswered hmsg hphase))
  have hunread (hmsg : hasBit s.bridge.card.cache.status sasiMsgBit = false)
      (hphase : s.bridge.card.cache.status &&& (sasiCtlBit ||| sasiInpBit) ≠ sasiCtlBit ||| sasiInpBit)
      (hh : h.Unread) : ∃ u h', (s.after (.readCommit .data)).Caught u h' :=
    ⟨w, h, hc.queued hc.holds hc.path rfl hroom (.unexpected hh) (hc.shows.of_isr (hquiet hmsg hphase)) (hselect h rfl)⟩
  have hshows := hc.shows
  cases h with
  | idle select =>
    have hzero : s.bridge.card.cache.status = 0 := hshows
    exact hunread (by rw [hzero]; decide) (by rw [hzero]; decide) trivial
  | selected =>
    have hbusy : s.bridge.card.cache.status = sasiBsyBit := hshows
    exact hunread (by rw [hbusy]; decide) (by rw [hbusy]; decide) trivial
  | waiting =>
    obtain ⟨-, -, hmsg, hphase⟩ := hshows.busy_cell hc.holds (.inl rfl)
    exact hunread hmsg hphase trivial
  | taking =>
    obtain ⟨hnonzero, hunanswered, hmsg, hphase⟩ := hshows.busy_cell hc.holds (.inr rfl)
    obtain ⟨hidle, hnone⟩ := (htimely.resolve_left hnonzero).resolve_left hunanswered
    obtain ⟨rfl, hpath⟩ := hc.path.rewait rfl hnone
    have hholds := hc.holds
    rw [hidle] at hholds
    have hwaits : Phase.waiting.Shows .waiting s.bridge.card :=
      ⟨fun _ => hshows.1 (.inr rfl), fun hn => absurd (.inl rfl) hn⟩
    exact ⟨.waiting, .waiting, hc.queued (hidle ▸ hholds.rewaits) hpath rfl hroom (.unexpected trivial)
      (hwaits.of_isr (hquiet hmsg hphase)) (hselect .waiting rfl)⟩
  | status =>
    have hoffered : s.bridge.card.cache.status = statusMask &&& ~~~sasiMsgBit := hshows
    have hcell : (s.after (.readCommit .data)).bridge.card.cache.status = statusMask := by
      rw [hcells]
      unfold CachedRegs.dataRead
      rw [hoffered]
      rfl
    exact ⟨w, .message, hc.queued hc.holds hc.path rfl hroom .statusRead hcell (hselect .message rfl)⟩
  | message =>
    have hoffered : s.bridge.card.cache.status = statusMask := hshows
    have hcell : (s.after (.readCommit .data)).bridge.card.cache.status = 0 := by
      rw [hcells]
      unfold CachedRegs.dataRead
      rw [hoffered]
      rfl
    exact ⟨w, .idle false, hc.queued hc.holds hc.path rfl hroom .messageRead hcell (hselect (.idle false) rfl)⟩

/-- The last RESET is queued; unless SELECT has moved since, nothing behind it leaves the free bus. -/
structure Watch.Resetting (s : Watch σ n) (before after : List Entry) (data : Byte) (seenAt : ℕ) : Prop where
  queue : s.bridge.queue = before ++ ⟨.write .control data, seenAt⟩ :: after
  reset : hasBit data dmaResetBit = true
  still : s.moved = false →
    Phase.Path (.idle (hasBit data dmaSelectBit)) after (.idle (hasBit data dmaSelectBit)) ∧
      hasBit s.bridge.card.cache.control dmaSelectBit = hasBit data dmaSelectBit

/-- The cells and the controller are on their way to each other. -/
structure Watch.Kept (s : Watch σ n) : Prop where
  aliased : s.bridge.card.Aliased
  addressed : s.bridge.Addressed
  phase : (∃ w h, s.Caught w h) ∨ ∃ before after data seenAt, s.Resetting before after data seenAt

lemma isr_control_written (b : Bridge σ n) (data : Byte) :
    (b.isr (.write .control data)).1.card.cache.control = data := by
  by_cases hr : hasBit data dmaResetBit = true
  · rw [isr_write_reset b hr, enqueue_card]
    rfl
  · rw [isr_control_cache b (Bool.eq_false_iff.mpr hr)]
    exact predicted_cacheControl _ data

lemma reset_resetting (hroom : s.bridge.Room) {data : Byte} (hr : hasBit data dmaResetBit = true) :
    (s.after (.write .control data)).Resetting s.bridge.queue [] data (s.bridge.fifoEntries + 1) where
  queue := by rw [isr_queue, if_pos ⟨rfl, hroom⟩]
  reset := hr
  still _ := ⟨.nil _, congrArg (hasBit · dmaSelectBit) (isr_control_written s.bridge data)⟩

variable {before after : List Entry} {data : Byte} {seenAt : ℕ}

lemma Watch.Resetting.aside (hs : s.Resetting before after data seenAt) (hd : isDeferred event = false) :
    (s.after event).Resetting before after data seenAt := by
  have hmoved : s.movedAfter event = s.moved := by
    cases event with
    | write target data => cases target <;> first | rfl | cases hd
    | _ => rfl
  refine ⟨?_, hs.reset, fun hm => ?_⟩
  · rw [isr_queue, if_neg fun hq => Bool.false_ne_true (hd.symm.trans hq.1)]
    exact hs.queue
  · rw [(isr_aside s.bridge hd).2]
    exact hs.still (hmoved.symm.trans hm)

lemma Watch.Resetting.queued (hs : s.Resetting before after data seenAt) (hroom : s.bridge.Room)
    (hd : isDeferred event = true)
    (hstill : s.movedAfter event = false → s.moved = false ∧
      (hasBit s.bridge.card.cache.control dmaSelectBit = hasBit data dmaSelectBit →
        Phase.Step (.idle (hasBit data dmaSelectBit)) event (.idle (hasBit data dmaSelectBit)) ∧
        hasBit (s.after event).bridge.card.cache.control dmaSelectBit = hasBit data dmaSelectBit)) :
    (s.after event).Resetting before (after ++ [⟨event, s.bridge.fifoEntries + 1⟩]) data seenAt := by
  refine ⟨?_, hs.reset, fun hm => ?_⟩
  · rw [isr_queue, if_pos ⟨hd, hroom⟩, hs.queue, List.append_assoc]
    rfl
  · obtain ⟨hmoved, hnext⟩ := hstill hm
    obtain ⟨hpath, hcontrol⟩ := hs.still hmoved
    obtain ⟨hstep, hcell⟩ := hnext hcontrol
    exact ⟨hpath.snoc _ hstep, hcell⟩

/-- Behind a RESET the host's accesses leave the free bus alone until it moves SELECT. -/
lemma Watch.Resetting.host (hs : s.Resetting before after data seenAt)
    (hadmits : s.Admits (.fifo event : BusLabel Io σ)) (hr : isResetWrite event = false) :
    ∃ after', (s.after event).Resetting before after' data seenAt := by
  obtain ⟨hroom, hadmits⟩ := hadmits
  by_cases hd : isDeferred event = true
  swap
  · exact ⟨after, hs.aside (Bool.eq_false_iff.mpr hd)⟩
  refine ⟨_, hs.queued (hroom hd) hd ?_⟩
  cases event with
  | readCommit target =>
    cases target with
    | data =>
      refine fun hm => ⟨hm, fun hcontrol => ⟨.unexpected trivial, ?_⟩⟩
      rw [isr_commit_cache, dataRead_cacheControl]
      exact hcontrol
    | _ => cases hd
  | write target byte =>
    cases target with
    | control =>
      intro hm
      have hr' : hasBit byte dmaResetBit = false := hr
      have hm' : (!hasBit byte dmaResetBit && (s.moved || s.bridge.movesSelect byte)) = false := hm
      rw [hr', Bool.not_false, Bool.true_and, Bool.or_eq_false_iff] at hm'
      refine ⟨hm'.1, fun hcontrol => ?_⟩
      have hsame : hasBit byte dmaSelectBit = hasBit data dmaSelectBit := (bne_eq_false_iff_eq.mp hm'.2).trans hcontrol
      refine ⟨.configure hr' hsame, ?_⟩
      rw [isr_control_written]
      exact hsame
    | data =>
      refine fun hm => ⟨hm, fun hcontrol => ⟨.byte byte (by simp), ?_⟩⟩
      rw [isr_data_cache]
      exact hcontrol
    | status => exact hadmits.elim
    | statusAlias => exact hadmits.elim
    | _ => cases hd
  | _ => cases hd

/-- One word of the host. -/
theorem Watch.Kept.host (hk : s.Kept) (hadmits : s.Admits (.fifo event : BusLabel Io σ))
    (htimely : s.Timely (.fifo event : BusLabel Io σ)) : (s.after event).Kept := by
  have haliased : (s.after event).bridge.card.Aliased := by
    refine isr_aliased hk.aliased fun byte hwrite => ?_
    subst hwrite
    exact hadmits.2.elim
  have haddressed : (s.after event).bridge.Addressed := by
    unfold Bridge.Addressed
    rw [isr_transfer]
    exact hk.addressed
  refine ⟨haliased, haddressed, ?_⟩
  by_cases hr : isResetWrite event = true
  · obtain ⟨byte, rfl, hreset⟩ : ∃ byte, event = .write .control byte ∧ hasBit byte dmaResetBit = true :=
      (isReset_iff ⟨event, 0⟩).mpr hr
    exact .inr ⟨_, _, _, _, reset_resetting (hadmits.1 rfl) hreset⟩
  have hr' := Bool.eq_false_iff.mpr hr
  rcases hk.phase with ⟨w, h, hc⟩ | ⟨before, after, data, seenAt, hs⟩
  swap
  · obtain ⟨after', hs'⟩ := hs.host hadmits hr'
    exact .inr ⟨_, _, _, _, hs'⟩
  left
  by_cases hd : isDeferred event = true
  swap
  · exact ⟨w, h, hc.aside (Bool.eq_false_iff.mpr hd)⟩
  cases event with
  | readCommit target =>
    cases target with
    | data => exact hc.read (hadmits.1 rfl) htimely
    | _ => cases hd
  | write target byte =>
    cases target with
    | control =>
      obtain ⟨h', hc'⟩ := hc.control (hadmits.1 rfl) hr' (htimely hr')
      exact ⟨w, h', hc'⟩
    | data =>
      obtain ⟨h', hc'⟩ := hc.data (hadmits.1 rfl) byte
      exact ⟨w, h', hc'⟩
    | status => exact hadmits.2.elim
    | statusAlias => exact hadmits.2.elim
    | _ => cases hd
  | _ => cases hd

lemma Resumes.caught {r : Card σ × Option Transfer} {rest : List Entry} (hres : Resumes h rest r)
    (hcontrol : hasBit r.1.cache.control dmaSelectBit = h.select) (hrequested : r.1.dma.resetRequested = false)
    {b : Bridge σ n} (hcard : b.card = r.1) (htransfer : b.transfer = r.2) (hqueue : b.queue = rest)
    (seen : Option Byte) (moved : Bool) : ∃ v h', Watch.Caught ⟨b, seen, moved⟩ v h' := by
  obtain ⟨v, h', hholds, hpath, hshows, hselect⟩ := hres
  refine ⟨v, h', ?_, ?_, ?_, ?_, ?_⟩
  · show v.Holds b.card b.transfer
    rw [hcard, htransfer]
    exact hholds
  · show v.Path b.queue h'
    rw [hqueue]
    exact hpath
  · show v.Shows h' b.card
    rw [hcard]
    exact hshows
  · show hasBit b.card.cache.control dmaSelectBit = h'.select
    rw [hcard, hcontrol, hselect]
  · show b.card.dma.resetRequested = false
    rw [hcard]
    exact hrequested

lemma Phase.Path.of_cons {e : Entry} {rest : List Entry} (hpath : w.Path (e :: rest) h) :
    ∃ w', Phase.Step w e.event w' ∧ w'.Path rest h := by
  cases hpath with
  | cons seenAt hstep hrest => exact ⟨_, hstep, hrest⟩

/-- At a sector boundary. -/
lemma Watch.Kept.boundary {reg : Registry Io σ} {io : SectorIo Io} (hk : s.Kept) {m : Transfer}
    (ht : s.bridge.transfer = some m) {b : Bridge σ n}
    (hb : b = s.bridge.afterBoundary (transferStep reg io s.bridge.card m)) :
    (∃ w h, Watch.Caught ⟨b, s.seen, s.moved⟩ w h) ∨
      ∃ before after data seenAt, Watch.Resetting ⟨b, s.seen, s.moved⟩ before after data seenAt := by
  have haddr := hk.addressed m ht
  have hboundary := transferStep_boundary reg io s.bridge.card haddr
  rw [afterBoundary_eq] at hb
  rcases hk.phase with ⟨w, h, hc⟩ | ⟨before, after, data, seenAt, hs⟩
  · have hholds := hc.holds
    rw [ht] at hholds
    have hres := boundary_resumes reg io hholds haddr hc.requested hc.path hc.shows
    exact .inl (hres.caught (hboundary.cacheControl ▸ hc.select) (hboundary.requested.trans hc.requested)
      (hb ▸ rfl) (hb ▸ rfl) (hb ▸ rfl) s.seen s.moved)
  · refine .inr ⟨before, after, data, seenAt, ?_, hs.reset, fun hm => ?_⟩
    · rw [hb]
      exact hs.queue
    · rw [hb]
      exact ⟨(hs.still hm).1, hboundary.cacheControl ▸ (hs.still hm).2⟩

/-- With the next entry. -/
lemma Watch.Kept.entry {io : SectorIo Io} (hk : s.Kept) (ht : s.bridge.transfer = none) {e : Entry}
    {rest : List Entry} (hq : s.bridge.queue = e :: rest) (htimely : isResetWrite e.event = true → s.moved = false)
    {b : Bridge σ n} (hb : b = s.bridge.afterEntry rest (deferProcessEntry io s.bridge.card e)) :
    (∃ w h, Watch.Caught ⟨b, s.seen, s.moved⟩ w h) ∨
      ∃ before after data seenAt, Watch.Resetting ⟨b, s.seen, s.moved⟩ before after data seenAt := by
  have hcontrol := deferProcessEntry_cacheControl io s.bridge.card e
  rcases hk.phase with ⟨w, h, hc⟩ | ⟨before, after, data, seenAt, hs⟩
  · have hholds := hc.holds
    rw [ht] at hholds
    have hpath := hc.path
    rw [hq] at hpath
    have hreset : ¬ e.IsReset := hpath.not_reset e List.mem_cons_self
    obtain ⟨w', hstep, hrest⟩ := hpath.of_cons
    have hres := hholds.entry io hstep hrest hc.shows e.seenAt
    exact .inl (hres.caught (hcontrol ▸ hc.select)
      ((deferProcessEntry_requested io s.bridge.card hreset).trans hc.requested)
      (hb ▸ rfl) (hb ▸ rfl) (hb ▸ rfl) s.seen s.moved)
  have hqueue := hs.queue
  rw [hq] at hqueue
  cases before with
  | nil =>
    obtain ⟨rfl, rfl⟩ := List.cons_eq_cons.mp hqueue
    obtain ⟨hpath, hselect⟩ := hs.still (htimely hs.reset)
    have hentry : deferProcessEntry io s.bridge.card ⟨.write .control data, seenAt⟩ =
        (resetCard s.bridge.card data, none) :=
      congrArg (fun d => (d, none)) (deferProcessControl_reset s.bridge.card hs.reset)
    obtain ⟨hholds, hcell, hrequested⟩ := resetCard_holds s.bridge.card data
    rw [hentry] at hb hcontrol
    have hres : Resumes (.idle (hasBit data dmaSelectBit)) rest (resetCard s.bridge.card data, none) :=
      ⟨_, _, hholds, hpath, hcell, rfl⟩
    exact .inl (hres.caught (hcontrol ▸ hselect) hrequested (hb ▸ rfl) (hb ▸ rfl) (hb ▸ rfl) s.seen s.moved)
  | cons first before =>
    obtain ⟨rfl, hrest⟩ := List.cons_eq_cons.mp hqueue
    refine .inr ⟨before, after, data, seenAt, ?_, hs.reset, fun hm => ?_⟩
    · rw [hb]
      exact hrest
    · rw [hb]
      exact ⟨(hs.still hm).1, hcontrol ▸ (hs.still hm).2⟩

theorem Watch.Kept.worker {reg : Registry Io σ} {io : SectorIo Io} {s' : Watch σ n} (hk : s.Kept)
    (htimely : s.Timely (.worker io)) (hs : s.step reg (.worker io) = some s') : s'.Kept := by
  obtain ⟨b, hstep, rfl⟩ := Option.map_eq_some_iff.mp hs
  have hworked := workerStep_worked reg hk.addressed hstep
  refine ⟨hworked.aliased hk.aliased, hworked.addressed, ?_⟩
  unfold Bridge.workerStep at hstep
  split at hstep
  next _ _ m ht => exact hk.boundary ht (Option.some.inj hstep).symm
  · cases hstep
  next e rest ht hq =>
    exact hk.entry ht hq (htimely ht e (hq ▸ rfl)) (Option.some.inj hstep).symm

lemma Watch.Kept.service {reg : Registry Io σ} {storage : Routing σ} {s' : Watch σ n} (hk : s.Kept)
    (hs : s.step reg (.service storage) = some s') : s'.Kept := by
  obtain ⟨b, hstep, rfl⟩ := Option.map_eq_some_iff.mp hs
  unfold Bridge.service at hstep
  split at hstep
  · cases hstep
    refine ⟨hk.aliased, hk.addressed, ?_⟩
    rcases hk.phase with ⟨w, h, hc⟩ | ⟨before, after, data, seenAt, hq⟩
    · exact .inl ⟨w, h, hc.holds.of_controller rfl, hc.path, hc.shows.of_cell rfl fun _ hsync => hsync, hc.select,
        hc.requested⟩
    · exact .inr ⟨before, after, data, seenAt, hq.queue, hq.reset, hq.still⟩
  · cases hstep

theorem Watch.Kept.step {reg : Registry Io σ} {s' : Watch σ n} {label : BusLabel Io σ} (hk : s.Kept)
    (hg : s.Admits label ∧ s.Timely label) (hs : s.step reg label = some s') : s'.Kept := by
  cases label with
  | fifo event =>
    cases hs
    exact hk.host hg.1 hg.2
  | worker io => exact hk.worker hg.2 hs
  | service storage => exact hk.service hs

lemma initial_kept (ram : ℕ → Byte) (storage : Routing σ) (chan : MgmtChan n) :
    (Watch.initial ram storage chan).Kept where
  aliased := rfl
  addressed t ht := by cases ht
  phase := .inl ⟨.idle false, .idle false,
    ⟨.of_free rfl rfl rfl rfl rfl, rfl, clear_select, fun h => (by cases h), fun h => (by cases h),
      fun h => (by cases h)⟩, .nil _, rfl, clear_select, rfl⟩

/-- Whenever the worker is done, both cells of STATUS show the bus. -/
theorem reset_agreement (reg : Registry Io σ) {ram : ℕ → Byte} {storage : Routing σ} {chan : MgmtChan n}
    {labels : List (BusLabel Io σ)} {s : Watch σ n}
    (h : Guarded (Watch.step reg) (fun s label => s.Admits label ∧ s.Timely label) (.initial ram storage chan) labels s)
    (hidle : s.bridge.Idle) :
    s.bridge.card.cache.status = s.bridge.card.dma.busCtrl &&& statusMask ∧
      s.bridge.card.cache.statusAlias = s.bridge.card.dma.busCtrl &&& statusMask := by
  have hstep (s : Watch σ n) (label : BusLabel Io σ) (s' : Watch σ n) (hk : s.Kept)
      (hg : s.Admits label ∧ s.Timely label) (hs : s.step reg label = some s') : s'.Kept := hk.step hg hs
  have hk := h.invariant hstep (initial_kept ram storage chan)
  have hsync : s.bridge.card.Synced := by
    rcases hk.phase with ⟨w, h, hc⟩ | ⟨before, after, data, seenAt, hq⟩
    · have hpath := hc.path
      rw [hidle.1] at hpath
      cases hpath with
      | nil => exact hc.holds.synced hc.shows
    · have hempty := hq.queue
      rw [hidle.1] at hempty
      simp at hempty
  exact ⟨hsync, hk.aliased.trans hsync⟩

instance Watch.decidableFollows (s : Watch σ n) : (event : FifoEvent) → Decidable (s.Follows event)
  | .readCommit .data => inferInstanceAs (Decidable (_ ∨ _))
  | .write .control _ => inferInstanceAs (Decidable (_ → _))
  | .write .status _ | .write .statusAlias _ => isFalse id
  | .write .data _ | .write .addrL _ | .write .addrM _ | .write .addrH _ | .write .mgmtCmd _
  | .write .mgmtStatus _ | .write .mgmtResp _ | .write .unused _ | .write .outside _ | .prefetch _
  | .readCommit .control | .readCommit .status | .readCommit .statusAlias | .readCommit .addrL
  | .readCommit .addrM | .readCommit .addrH | .readCommit .mgmtCmd | .readCommit .mgmtStatus
  | .readCommit .mgmtResp | .readCommit .unused | .readCommit .outside | .unknown => isTrue trivial

instance Watch.decidableAdmits (s : Watch σ n) : (label : BusLabel Io σ) → Decidable (s.Admits label)
  | .fifo _ => inferInstanceAs (Decidable (_ ∧ _))
  | .worker _ | .service _ => isTrue trivial

instance Watch.decidableTimely (s : Watch σ n) : (label : BusLabel Io σ) → Decidable (s.Timely label)
  | .fifo (.readCommit .data) => inferInstanceAs (Decidable (_ ∨ _ ∨ s.bridge.transfer = none ∧
    ∀ e ∈ s.bridge.queue, notData e.event = true))
  | .fifo (.write .control _) => inferInstanceAs (Decidable (_ → _))
  | .worker _ => inferInstanceAs (Decidable (s.bridge.transfer = none → ∀ e ∈ s.bridge.queue.head?, _ → _))
  | .fifo (.write .data _) | .fifo (.write .status _) | .fifo (.write .statusAlias _)
  | .fifo (.write .addrL _) | .fifo (.write .addrM _) | .fifo (.write .addrH _)
  | .fifo (.write .mgmtCmd _) | .fifo (.write .mgmtStatus _) | .fifo (.write .mgmtResp _)
  | .fifo (.write .unused _) | .fifo (.write .outside _) | .fifo (.prefetch _)
  | .fifo (.readCommit .control) | .fifo (.readCommit .status) | .fifo (.readCommit .statusAlias)
  | .fifo (.readCommit .addrL) | .fifo (.readCommit .addrM) | .fifo (.readCommit .addrH)
  | .fifo (.readCommit .mgmtCmd) | .fifo (.readCommit .mgmtStatus) | .fifo (.readCommit .mgmtResp)
  | .fifo (.readCommit .unused) | .fifo (.readCommit .outside) | .fifo .unknown
  | .service _ => isTrue trivial

def bareWatch : Watch Unit 2 := .initial (fun _ => 0) (.initial ()) (.initial Nat.two_pos)

def followWatch (guard : Watch Unit 2 → BusLabel Unit Unit → Prop) [∀ s l, Decidable (guard s l)]
    (labels : List (BusLabel Unit Unit)) : Option (Watch Unit 2) :=
  follow (Watch.step fun _ => none) guard bareWatch labels

/-- A RESET in the middle of a command, and behind it a selection. -/
def resetTaken : List (BusLabel Unit Unit) :=
  [.fifo (.prefetch .status), .fifo (.write .data 0x01), .fifo (.write .control 0x10), .fifo (.write .control 0x00),
    .fifo (.write .data 0x00), .fifo (.write .control 0x20)] ++ workerTurns 5 ++
  [.fifo (.prefetch .status), .fifo (.write .data 0x01), .fifo (.write .control 0x10)] ++ workerTurns 2

theorem reset_agreement_taken :
    ∃ s, followWatch (fun s label => s.Admits label ∧ s.Timely label) resetTaken = some s ∧
      s.bridge.card.cache.status = sasiBsyBit ∧
      s.bridge.card.cache.status = s.bridge.card.dma.busCtrl &&& statusMask := by
  obtain ⟨s, hs⟩ : ∃ s, followWatch (fun s label => s.Admits label ∧ s.Timely label) resetTaken = some s :=
    Option.isSome_iff_exists.mp (by decide +kernel)
  have hend : (followWatch (fun s label => s.Admits label ∧ s.Timely label) resetTaken).map
      (fun s => (s.bridge.queue, s.bridge.transfer.isNone, s.bridge.card.cache.status)) =
      some ([], true, sasiBsyBit) := by decide +kernel
  rw [hs] at hend
  simp only [Option.map_some, Option.some.injEq, Prod.mk.injEq, Option.isNone_iff_eq_none] at hend
  obtain ⟨hqueue, htransfer, hcell⟩ := hend
  exact ⟨s, hs, hcell, (reset_agreement _ (Guarded.of_follow hs) ⟨hqueue, htransfer⟩).1⟩

/-- The host selects before the worker has come to the RESET. -/
def resetOvertaken : List (BusLabel Unit Unit) :=
  [.fifo (.write .control 0x20), .fifo (.prefetch .status), .fifo (.write .control 0x10)] ++ workerTurns 2

/-- The RESET entry clears the phase that the handler has set for the selection. -/
theorem reset_reverts :
    ∃ s, Guarded (Watch.step fun _ => none) (fun s label => s.Admits label) bareWatch resetOvertaken s ∧
      s.bridge.Idle ∧ s.bridge.card.cache.status = 0x00 ∧ s.bridge.card.dma.busCtrl &&& statusMask = sasiBsyBit := by
  obtain ⟨s, hs⟩ : ∃ s, followWatch (fun s label => s.Admits label) resetOvertaken = some s :=
    Option.isSome_iff_exists.mp (by decide +kernel)
  have hend : (followWatch (fun s label => s.Admits label) resetOvertaken).map
      (fun s => (s.bridge.queue, s.bridge.transfer.isNone, s.bridge.card.cache.status,
        s.bridge.card.dma.busCtrl &&& statusMask)) = some ([], true, 0x00, sasiBsyBit) := by decide +kernel
  rw [hs] at hend
  simp only [Option.map_some, Option.some.injEq, Prod.mk.injEq, Option.isNone_iff_eq_none] at hend
  obtain ⟨hqueue, htransfer, hcell, hbus⟩ := hend
  exact ⟨s, Guarded.of_follow hs, ⟨hqueue, htransfer⟩, hcell, hbus⟩

end PicoV9k.Sasi
