import PicoV9k.PhasePaths

/-!
# The worker from phase to phase

What the worker makes of the next entry on its path, of a RESET entry and of a sector
boundary: it comes to a phase from which the rest of the path leads to what STATUS shows.
-/
namespace PicoV9k.Sasi
open PicoV9k.Bus PicoV9k.Storage

variable {Io σ : Type}

lemma acceptDataByte_synced {c : Card σ} (h : c.Synced) (data : Byte) : (acceptDataByte c data).Synced := by
  have hsel : ∀ b : Byte, (b &&& ~~~sasiSelBit) &&& statusMask = b &&& statusMask := by decide
  unfold acceptDataByte
  dsimp only
  split
  · split
    · rfl
    · exact Eq.trans h (hsel _).symm
  · split
    · rfl
    · exact h

/-- A byte that is not asked for leaves the cells and the phase as they are. -/
lemma acceptDataByte_unasked {c : Card σ} (data : Byte)
    (h : c.dma.nonDmaReq = false ∨ hasBit c.dma.busCtrl sasiInpBit = true) :
    (acceptDataByte c data).cache = c.cache ∧ (acceptDataByte c data).dma.nonDmaReq = c.dma.nonDmaReq ∧
      (acceptDataByte c data).dma.busCtrl &&& statusMask = c.dma.busCtrl &&& statusMask := by
  have hsel : ∀ b : Byte, (b &&& ~~~sasiSelBit) &&& statusMask = b &&& statusMask ∧
    hasBit (b &&& ~~~sasiSelBit) sasiInpBit = hasBit b sasiInpBit := by decide
  have hoff : ¬ (c.dma.nonDmaReq && !hasBit c.dma.busCtrl sasiInpBit) = true := by
    rcases h with h | h
    · rw [h]
      exact Bool.false_ne_true
    · rw [h, Bool.not_true, Bool.and_false]
      exact Bool.false_ne_true
  unfold acceptDataByte
  by_cases hc : hasBit c.dma.control dmaSelectBit = true
  · simp only [if_pos hc, (hsel _).2, if_neg hoff]
    exact ⟨trivial, trivial, (hsel _).1⟩
  · simp only [if_neg hc, if_neg hoff]
    exact ⟨trivial, trivial, trivial⟩

/-- Outside a command a byte only sets the command latch, and under SELECT the target. -/
lemma deferProcessData_ignored (io : SectorIo Io) {c : Card σ} (seenAt : ℕ) (data : Byte)
    (hlist : c.dma.dataOutExpected = 0) (hphase : c.dma.busCtrl &&& phaseMask ≠ sasiCtlBit)
    (h : c.dma.nonDmaReq = false ∨ hasBit c.dma.busCtrl sasiInpBit = true) :
    deferProcessData io c seenAt data = (acceptDataByte c data, none) := by
  have hbits : ∀ b b' : Byte, b &&& statusMask = b' &&& statusMask → b &&& phaseMask = b' &&& phaseMask := by
    intro b b' hb
    have hmask : ∀ b : Byte, b &&& phaseMask = b &&& statusMask &&& phaseMask := by decide
    rw [hmask b, hmask b', hb]
  obtain ⟨-, -, hbus⟩ := acceptDataByte_unasked data h
  have hphase' : ¬ (acceptDataByte c data).dma.busCtrl &&& phaseMask = sasiCtlBit := by
    rw [hbits _ _ hbus]
    exact hphase
  have hlist' : ¬ 0 < (acceptDataByte c data).dma.dataOutExpected := by
    rw [(acceptDataByte_kept c data).2.1, hlist]
    exact Nat.lt_irrefl 0
  unfold deferProcessData
  dsimp only
  rw [if_neg hphase', if_neg hlist']

/-- Outside a command no byte is asked for. -/
lemma Phase.Holds.unasked {w : Phase} {c : Card σ} (hw : w.Holds c none) (hb : ¬ w.Busy) :
    c.dma.nonDmaReq = false ∨ hasBit c.dma.busCtrl sasiInpBit = true := by
  have hoffered : ∀ b : Byte, (b &&& statusMask = statusMask &&& ~~~sasiMsgBit ∨ b &&& statusMask = statusMask) →
      hasBit b sasiInpBit = true := by decide
  have hbus := hw.bus
  cases w with
  | idle select =>
    have hzero : c.dma.busCtrl = 0 := hbus
    exact .inl (hw.tidy.clean hzero).nonDmaReq
  | selected => exact .inl (hw.quiet rfl).1
  | waiting => exact absurd (.inl rfl) hb
  | taking => exact absurd (.inr rfl) hb
  | status => exact .inr (hoffered _ (.inl hbus))
  | message => exact .inr (hoffered _ (.inr hbus))

lemma Phase.Bus.masked {w : Phase} {bus bus' : Byte} (h : w.Bus bus) (hb : ¬ w.Busy)
    (heq : bus' &&& statusMask = bus &&& statusMask) (hdriven : bus = 0 → bus' = 0) : w.Bus bus' := by
  cases w with
  | idle select => exact hdriven h
  | waiting => exact absurd (.inl rfl) hb
  | taking => exact absurd (.inr rfl) hb
  | _ => exact heq.trans h

/-- What a byte of the command leads to. -/
structure Fed (r : Card σ × Option Transfer) : Prop where
  holds : Phase.taking.Holds r.1 r.2 ∨ Phase.status.Holds r.1 r.2 ∧ r.2 = none
  synced : r.1.Synced

lemma statusRequest_shown : ∀ b : Byte, statusRequest b &&& statusMask = statusMask &&& ~~~sasiMsgBit := by
  decide

lemma commandRequest_calm : ∀ b : Byte, hasBit (commandRequest b) sasiBsyBit = true ∧
    hasBit (commandRequest b) sasiMsgBit = false ∧
    commandRequest b &&& phaseMask ≠ sasiCtlBit ||| sasiInpBit := by decide

lemma dataOutRequest_calm : ∀ b : Byte, hasBit (dataOutRequest b) sasiBsyBit = true ∧
    hasBit (dataOutRequest b) sasiMsgBit = false ∧
    dataOutRequest b &&& phaseMask ≠ sasiCtlBit ||| sasiInpBit := by decide

lemma busyBus_shown : ∀ b : Byte, busyBus b = true → hasBit b sasiMsgBit = false →
    hasBit b sasiBsyBit = true ∧ hasBit b sasiMsgBit = false ∧
      b &&& phaseMask ≠ sasiCtlBit ||| sasiInpBit := by decide

/-- A transfer starts without a message. -/
lemma deferProcessData_message (io : SectorIo Io) (c : Card σ) (seenAt : ℕ) (data : Byte) :
    ∀ t ∈ (deferProcessData io c seenAt data).2,
      hasBit (deferProcessData io c seenAt data).1.dma.busCtrl sasiMsgBit = false := by
  unfold deferProcessData
  dsimp only
  split
  · unfold handleSasiCommandByte
    dsimp only
    split
    · have hroute := routeToSasiTarget_message io
        { acceptDataByte c data with
          cmdBuffer := (acceptDataByte c data).cmdBuffer ++ [data]
          history := { (acceptDataByte c data).history with issuedAt := seenAt } }
        ((acceptDataByte c data).cmdBuffer ++ [data])
      generalize routeToSasiTarget io _ _ = r at hroute ⊢
      obtain ⟨d, t⟩ := r
      cases t with
      | none => exact fun t ht => by cases ht
      | some t => exact hroute
    · exact fun t ht => by cases ht
  · split
    · exact fun t ht => by cases ht
    · exact fun t ht => by cases ht

lemma Phase.taking_holds {c : Card σ} {t : Option Transfer} (htidy : c.controller.Tidy t.isSome)
    (hbus : Phase.taking.Bus c.dma.busCtrl) (hsel : hasBit c.dma.control dmaSelectBit = false) :
    Phase.taking.Holds c t :=
  ⟨htidy, hbus, hsel, fun _ => rfl, fun h => (by cases h), fun h => (by cases h)⟩

lemma Phase.status_holds {c : Card σ} (htidy : c.controller.Tidy false)
    (hbus : Phase.status.Bus c.dma.busCtrl) (hsel : hasBit c.dma.control dmaSelectBit = false)
    (hpending : c.dma.statusPending = true) : Phase.status.Holds c none :=
  ⟨htidy, hbus, hsel, fun h => (by cases h), fun h => (by cases h), fun _ => hpending⟩

lemma Executed.dmaControl {c d : Card σ} (h : Executed c d) : d.dma.control = c.dma.control :=
  (congrArg Registers.control h.dma :)

lemma Routed.fed {c : Card σ} {cdb : List Byte} {r : Card σ × Option Transfer} (h : Routed c cdb r)
    (hsync : c.Synced) (hsel : hasBit c.dma.control dmaSelectBit = false)
    (htidy : (afterRoute r).1.controller.Tidy (afterRoute r).2.isSome)
    (hmsg : ∀ t ∈ (afterRoute r).2, hasBit (afterRoute r).1.dma.busCtrl sasiMsgBit = false) :
    Fed (afterRoute r) := by
  cases h with
  | moving hop hc hlog haddr =>
    have hbus := busyBus_shown _ (htidy.executing rfl).2 (hmsg _ rfl)
    exact ⟨.inl (Phase.taking_holds htidy hbus (hc.dmaControl ▸ hsel)), hc.synced hsync⟩
  | completed b hop hc =>
    exact ⟨.inr ⟨Phase.status_holds htidy (statusRequest_shown _) (hc.dmaControl ▸ hsel) rfl, rfl⟩, rfl⟩
  | expecting hop => exact ⟨.inl (Phase.taking_holds htidy (dataOutRequest_calm _) hsel), rfl⟩

lemma handleSasiDataOutByte_fed {c : Card σ} (hl : 0 < c.dma.dataOutExpected) (data : Byte)
    (hsel : hasBit c.dma.control dmaSelectBit = false)
    (htidy : (handleSasiDataOutByte c data).controller.Tidy false) :
    Fed ((handleSasiDataOutByte c data, none) : Card σ × Option Transfer) := by
  unfold handleSasiDataOutByte at htidy ⊢
  rw [if_neg (Nat.pos_iff_ne_zero.mp hl)] at htidy ⊢
  dsimp only at htidy ⊢
  split at htidy
  next hmore =>
    rw [if_pos hmore]
    exact ⟨.inl (Phase.taking_holds htidy (dataOutRequest_calm _) hsel), rfl⟩
  next hlast =>
    rw [if_neg hlast]
    exact ⟨.inr ⟨Phase.status_holds htidy (statusRequest_shown _) hsel rfl, rfl⟩, rfl⟩

lemma acceptDataByte_calm {w : Phase} {c : Card σ} (hw : w.Holds c none) (hb : w.Busy) (data : Byte) :
    Phase.taking.Bus (acceptDataByte c data).dma.busCtrl ∧
      hasBit (acceptDataByte c data).dma.control dmaSelectBit = false := by
  have hcalm : ∀ b b' : Byte, hasBit b sasiMsgBit = false → b' &&& phaseMask = b &&& phaseMask →
      hasBit b' sasiMsgBit = false := by
    intro b b' hmsg hphase
    have hmask : ∀ b : Byte, hasBit b sasiMsgBit = hasBit (b &&& phaseMask) sasiMsgBit := by decide
    rw [hmask, hphase, ← hmask, hmsg]
  have hbus : Phase.taking.Bus c.dma.busCtrl := by
    have hbus := hw.bus
    rcases hb with rfl | rfl <;> exact hbus
  have hsel : hasBit c.dma.control dmaSelectBit = false := by
    have hsel := hw.select
    rcases hb with rfl | rfl <;> exact hsel
  obtain ⟨hbsy, hmsg, hphase⟩ := hbus
  obtain ⟨-, hbsy', -, hphase'⟩ := acceptedBus_bits c.dma.control c.dma.busCtrl c.dma.nonDmaReq hw.tidy.select
  rw [← (acceptDataByte_bus c data).1] at hbsy' hphase'
  refine ⟨⟨hbsy'.trans hbsy, hcalm _ _ hmsg hphase', ?_⟩, ?_⟩
  · rw [hphase']
    exact hphase
  · rw [(acceptDataByte_kept c data).2.2.2.1]
    exact hsel

/-- A byte of a command or of a list leaves the phase as it is or ends the command. -/
theorem deferProcessData_fed (io : SectorIo Io) {w : Phase} {c : Card σ} (hw : w.Holds c none) (hb : w.Busy)
    (hsync : c.Synced) (seenAt : ℕ) (data : Byte) : Fed (deferProcessData io c seenAt data) := by
  have htidy := deferProcessEntry_tidy io (e := ⟨.write .data data, seenAt⟩) hw.tidy (by simp [releases])
  have hmsg := deferProcessData_message io c seenAt data
  have htaken := deferProcessData_taken io c seenAt data
  obtain ⟨hbus, hsel⟩ := acceptDataByte_calm hw hb data
  have haccepted := acceptDataByte_synced hsync data
  change (deferProcessData io c seenAt data).1.controller.Tidy (deferProcessData io c seenAt data).2.isSome at htidy
  generalize deferProcessData io c seenAt data = r at htidy hmsg htaken ⊢
  cases htaken with
  | more hp hlen => exact ⟨.inl (Phase.taking_holds htidy (commandRequest_calm _) hsel), rfl⟩
  | whole hp hr => exact hr.fed haccepted hsel htidy hmsg
  | list hp hlist => exact handleSasiDataOutByte_fed hlist data hsel htidy
  | ignored hp hlist => exact ⟨.inl (Phase.taking_holds htidy hbus hsel), haccepted⟩

/-- The worker comes to a phase on the host's path again, and SELECT is where the host left it. -/
def Resumes (h : Phase) (rest : List Entry) (r : Card σ × Option Transfer) : Prop :=
  ∃ v h', Phase.Holds v r.1 r.2 ∧ v.Path rest h' ∧ v.Shows h' r.1 ∧ h'.select = h.select

variable {w w' h : Phase} {c : Card σ} {rest : List Entry}

lemma configure_resumes (hw : w.Holds c none) (hpath : w.Path rest h) (hshows : w.Shows h c) {data : Byte}
    (hr : hasBit data dmaResetBit = false) (hs : hasBit data dmaSelectBit = w.select) :
    Resumes h rest (deferProcessControl c data, none) := by
  have hsame := hs.trans hw.select.symm
  have htidy := deferProcessControl_tidy hw.tidy data fun hrel => by
    simp only [releases, hr, hsame] at hrel
    simp at hrel
  rw [deferProcessControl_configure hr hsame] at htidy ⊢
  exact ⟨w, h, ⟨htidy, hw.bus, hs, hw.moving, hw.quiet, hw.pending⟩, hpath, hshows.of_cell rfl fun _ h => h, rfl⟩

lemma select_resumes (hw : (Phase.idle false).Holds c none) (hpath : Phase.selected.Path rest h)
    (hshows : (Phase.idle false).Shows h c) {data : Byte} (hr : hasBit data dmaResetBit = false)
    (hs : hasBit data dmaSelectBit = true) : Resumes h rest (deferProcessControl c data, none) := by
  have hzero : c.dma.busCtrl = 0 := hw.bus
  have hclean := hw.tidy.clean hzero
  have hraised : (0 ||| sasiSelBit ||| sasiBsyBit : Byte) &&& statusMask = sasiBsyBit := by decide
  have htidy := deferProcessControl_tidy hw.tidy data fun _ => hclean.dataOutExpected
  rw [deferProcessControl_select hr hs hw.select] at htidy ⊢
  refine ⟨.selected, h, ⟨htidy, ?_, hs, fun h => (by cases h), fun _ => ⟨hclean.nonDmaReq, hclean.dataOutExpected⟩,
    fun h => (by cases h)⟩, hpath, ?_, rfl⟩
  · show (c.dma.busCtrl ||| sasiSelBit ||| sasiBsyBit) &&& statusMask = sasiBsyBit
    rw [hzero]
    exact hraised
  · have hmoved : Phase.selected.Shows h c := hshows.moved fun _ => by simp [Phase.Busy]
    exact hmoved.of_cell rfl fun hb => by simp [Phase.Busy] at hb

lemma releasedBus_shown : ∀ b : Byte, b = 0 ∨ b &&& statusMask = sasiBsyBit →
    releasedBus b &&& statusMask = sasiBsyBit ||| sasiReqBit ||| sasiCtlBit := by decide

lemma releasedBus_calm : ∀ b : Byte, releasedBus b &&& statusMask = sasiBsyBit ||| sasiReqBit ||| sasiCtlBit →
    hasBit (releasedBus b) sasiBsyBit = true ∧ hasBit (releasedBus b) sasiMsgBit = false ∧
      releasedBus b &&& phaseMask ≠ sasiCtlBit ||| sasiInpBit := by decide

/-- The controller now shows what the handler has predicted. -/
lemma release_resumes (hw : w.Holds c none) (hfalls : w = .idle true ∨ w = .selected)
    (hpath : Phase.waiting.Path rest h) (hshows : w.Shows h c) {data : Byte}
    (hr : hasBit data dmaResetBit = false) (hs : hasBit data dmaSelectBit = false) :
    Resumes h rest (deferProcessControl c data, none) := by
  have hsel : hasBit c.dma.control dmaSelectBit = true := by
    rw [hw.select]
    rcases hfalls with rfl | rfl <;> rfl
  have hb : ¬ w.Busy := by rcases hfalls with rfl | rfl <;> simp [Phase.Busy]
  have hbus : c.dma.busCtrl = 0 ∨ c.dma.busCtrl &&& statusMask = sasiBsyBit := by
    have hbus := hw.bus
    rcases hfalls with rfl | rfl
    · exact .inl hbus
    · exact .inr hbus
  have hshown := releasedBus_shown _ hbus
  have htidy := deferProcessControl_tidy hw.tidy data fun _ => (hw.noList hb).1
  rw [deferProcessControl_release hr hs hsel] at htidy ⊢
  have hbusy := hpath.of_busy (.inl rfl)
  have hcell : c.cache.status = sasiBsyBit ||| sasiReqBit ||| sasiCtlBit := by
    rcases hbusy with rfl | rfl
    · exact hshows.2 hb
    · exact hshows.2 hb
  have hwaits : Phase.waiting.Shows h
      { c with dma := selectReleased (controlModes { c.dma with control := data } data) } := by
    rcases hbusy with rfl | rfl
    · exact ⟨fun _ => hcell.trans hshown.symm, fun hn => absurd (.inl rfl) hn⟩
    · exact ⟨fun _ => hcell.trans hshown.symm, fun hn => absurd (.inl rfl) hn⟩
  exact ⟨.waiting, h, ⟨htidy, releasedBus_calm _ hshown, hs, fun h => (by cases h), fun h => (by cases h),
    fun h => (by cases h)⟩, hpath, hwaits, rfl⟩

/-- A byte of the command. -/
lemma byte_resumes (io : SectorIo Io) (hw : w.Holds c none) (hb : w.Busy) (hpath : Phase.taking.Path rest h)
    (hshows : w.Shows h c) (seenAt : ℕ) (data : Byte) : Resumes h rest (deferProcessData io c seenAt data) := by
  obtain ⟨rfl, hstatus⟩ := hpath.of_taking rfl
  obtain ⟨hholds, hsync⟩ := deferProcessData_fed io hw hb (hshows.1 hb) seenAt data
  rcases hholds with hholds | ⟨hholds, hnone⟩
  · exact ⟨.taking, .taking, hholds, hpath, ⟨fun _ => hsync, fun hn => absurd (.inr rfl) hn⟩, rfl⟩
  · exact ⟨.status, .status, hnone ▸ hholds, hstatus, hsync.trans hholds.bus, rfl⟩

lemma ignored_resumes (io : SectorIo Io) (hw : w.Holds c none) (hb : ¬ w.Busy) (hpath : w.Path rest h)
    (hshows : w.Shows h c) (seenAt : ℕ) (data : Byte) : Resumes h rest (deferProcessData io c seenAt data) := by
  obtain ⟨hlist, hphase⟩ := hw.noList hb
  obtain ⟨hcells, hreq, hbus⟩ := acceptDataByte_unasked data (hw.unasked hb)
  obtain ⟨-, hexpected, -, hcontrol, hpending⟩ := acceptDataByte_kept c data
  have hdriven : c.dma.busCtrl = 0 → (acceptDataByte c data).dma.busCtrl = 0 := fun h0 => by
    rw [(hw.tidy.clean h0).accepted h0]
    exact h0
  rw [deferProcessData_ignored io seenAt data hlist hphase (hw.unasked hb)]
  refine ⟨w, h, ⟨(acceptDataByte_tidy hw.tidy data).1, hw.bus.masked hb hbus hdriven, hcontrol ▸ hw.select, hw.moving,
    fun hq => ⟨hreq.trans (hw.quiet hq).1, hexpected.trans (hw.quiet hq).2⟩, fun hq => hpending.trans (hw.pending hq)⟩,
    hpath, hshows.of_cell (congrArg CachedRegs.status hcells) fun hb' => absurd hb' hb, rfl⟩

/-- A read that finds no answer on the bus leaves the phase alone. -/
lemma unexpected_resumes (hw : w.Holds c none) (hunread : w.Unread) (hpath : w.Path rest h) (hshows : w.Shows h c) :
    Resumes h rest (deferProcessRead c .data, none) := by
  have hidle : ∀ b : Byte, (b = 0 ∨ b &&& statusMask = sasiBsyBit) → hasBit b sasiMsgBit = false ∧
      b &&& (sasiCtlBit ||| sasiInpBit) ≠ sasiCtlBit ||| sasiInpBit := by decide
  have hasked : ∀ b : Byte, hasBit b sasiMsgBit = false → b &&& phaseMask ≠ sasiCtlBit ||| sasiInpBit →
      b &&& (sasiCtlBit ||| sasiInpBit) ≠ sasiCtlBit ||| sasiInpBit := by decide
  have hbus := hw.bus
  have hnone : hasBit c.dma.busCtrl sasiMsgBit = false ∧
      c.dma.busCtrl &&& (sasiCtlBit ||| sasiInpBit) ≠ sasiCtlBit ||| sasiInpBit := by
    cases w with
    | idle select => exact hidle _ (.inl hbus)
    | selected => exact hidle _ (.inr hbus)
    | waiting => exact ⟨hbus.2.1, hasked _ hbus.2.1 hbus.2.2⟩
    | _ => exact hunread.elim
  have htidy := deferProcessRead_tidy hw.tidy .data
  unfold deferProcessRead at htidy ⊢
  dsimp only at htidy ⊢
  rw [if_neg (Bool.eq_false_iff.mp hnone.1), if_neg hnone.2] at htidy ⊢
  by_cases hin : c.dma.busCtrl &&& (sasiCtlBit ||| sasiInpBit) = sasiInpBit
  · rw [if_pos hin] at htidy ⊢
    exact ⟨w, h, ⟨htidy, hbus, hw.select, hw.moving, fun hq => ⟨rfl, (hw.quiet hq).2⟩, hw.pending⟩, hpath,
      hshows.of_cell rfl fun _ h => h, rfl⟩
  · rw [if_neg hin] at htidy ⊢
    exact ⟨w, h, hw, hpath, hshows, rfl⟩

/-- The status byte was read: the message follows. -/
lemma statusRead_resumes (hw : Phase.status.Holds c none) (hpath : Phase.message.Path rest h)
    (hshows : Phase.status.Shows h c) : Resumes h rest (deferProcessRead c .data, none) := by
  have hoffered : ∀ b : Byte, b &&& statusMask = statusMask &&& ~~~sasiMsgBit → hasBit b sasiMsgBit = false ∧
      b &&& (sasiCtlBit ||| sasiInpBit) = sasiCtlBit ||| sasiInpBit ∧
      (b ||| sasiMsgBit) &&& statusMask = statusMask := by decide
  obtain ⟨hmsg, hphase, hnext⟩ := hoffered _ hw.bus
  have htidy := deferProcessRead_tidy hw.tidy .data
  unfold deferProcessRead at htidy ⊢
  dsimp only at htidy ⊢
  rw [if_neg (Bool.eq_false_iff.mp hmsg), if_pos hphase, if_pos (hw.pending rfl)] at htidy ⊢
  have hmoved : Phase.message.Shows h c := hshows.moved fun _ => by simp [Phase.Busy]
  exact ⟨.message, h, ⟨htidy, hnext, hw.select, fun h => (by cases h), fun h => (by cases h), fun h => (by cases h)⟩,
    hpath, hmoved.of_cell rfl fun hb => by simp [Phase.Busy] at hb, rfl⟩

/-- The message byte was read: the bus is free. -/
lemma messageRead_resumes (hw : Phase.message.Holds c none) (hpath : (Phase.idle false).Path rest h)
    (hshows : Phase.message.Shows h c) : Resumes h rest (deferProcessRead c .data, none) := by
  have hoffered : ∀ b : Byte, b &&& statusMask = statusMask → hasBit b sasiMsgBit = true := by decide
  have htidy := deferProcessRead_tidy hw.tidy .data
  unfold deferProcessRead at htidy ⊢
  dsimp only at htidy ⊢
  rw [if_pos (hoffered _ hw.bus)] at htidy ⊢
  have hmoved : (Phase.idle false).Shows h c := hshows.moved fun _ => by simp [Phase.Busy]
  exact ⟨.idle false, h, ⟨htidy, rfl, hw.select, fun h => (by cases h), fun h => (by cases h), fun h => (by cases h)⟩,
    hpath, hmoved.of_cell rfl fun hb => by simp [Phase.Busy] at hb, rfl⟩

/-- The worker takes the next entry of the path. -/
theorem Phase.Holds.entry (io : SectorIo Io) (hw : w.Holds c none) {event : FifoEvent} (hstep : Phase.Step w event w')
    (hpath : w'.Path rest h) (hshows : w.Shows h c) (seenAt : ℕ) :
    Resumes h rest (deferProcessEntry io c ⟨event, seenAt⟩) := by
  cases hstep with
  | configure hr hs => exact configure_resumes hw hpath hshows hr hs
  | select hr hs => exact select_resumes hw hpath hshows hr hs
  | release hr hs hfalls => exact release_resumes hw hfalls hpath hshows hr hs
  | firstByte data => exact byte_resumes io hw (.inl rfl) hpath hshows seenAt data
  | byte data hwaits =>
    by_cases hb : w.Busy
    · have htakes : w = .taking := hb.resolve_left hwaits
      exact byte_resumes io hw hb (htakes ▸ hpath) hshows seenAt data
    · exact ignored_resumes io hw hb hpath hshows seenAt data
  | unexpected hunread => exact unexpected_resumes hw hunread hpath hshows
  | statusRead => exact statusRead_resumes hw hpath hshows
  | messageRead => exact messageRead_resumes hw hpath hshows

/-- The worker takes a RESET: the bus is free and the cells are cleared. -/
lemma resetCard_holds (c : Card σ) (data : Byte) :
    (Phase.idle (hasBit data dmaSelectBit)).Holds (resetCard c data) none ∧ (resetCard c data).cache.status = 0 ∧
      (resetCard c data).dma.resetRequested = false :=
  ⟨⟨.of_free rfl rfl rfl rfl rfl, rfl, rfl, fun h => (by cases h), fun h => (by cases h),
    fun h => (by cases h)⟩, rfl, rfl⟩

/-- A sector boundary without a RESET. -/
lemma boundary_resumes (reg : Registry Io σ) (io : SectorIo Io) {t : Transfer} (hw : w.Holds c (some t))
    (haddr : t.localDmaAddr < ramSize) (hreset : c.dma.resetRequested = false) (hpath : w.Path rest h)
    (hshows : w.Shows h c) : Resumes h rest (afterRoute (transferStep reg io c t)) := by
  obtain rfl := hw.moving rfl
  obtain ⟨rfl, hstatus⟩ := hpath.of_taking rfl
  obtain ⟨hlist, hbusy⟩ := hw.tidy.executing rfl
  have hsync := hshows.1 (.inr rfl)
  have hboundary := transferStep_boundary reg io c haddr
  have hmsg := transferStep_message reg io (t := t) hw.bus.2.1
  generalize transferStep reg io c t = r at hboundary hmsg
  cases hboundary with
  | abandoned hrequested => exact absurd (hreset.symm.trans hrequested) Bool.false_ne_true
  | @moved d _ _ hd _ =>
    have hbusy' := hd.busy hbusy
    have hnone := (congrArg Registers.dataOutExpected hd.dma :).trans hlist
    have htidy : d.controller.Tidy true := .of_busy hbusy' hnone Bool.noConfusion
    exact ⟨.taking, .taking, Phase.taking_holds htidy (busyBus_shown _ hbusy' (hmsg _ rfl)) (hd.dmaControl ▸ hw.select),
      hpath, ⟨fun _ => hd.synced hsync, fun hn => absurd (.inr rfl) hn⟩, rfl⟩
  | @completed d b _ hd =>
    have hnone := (congrArg Registers.dataOutExpected hd.dma :).trans hlist
    have htidy : (afterRoute (sasiEnterStatusPhase d b, none)).1.controller.Tidy false :=
      .of_status (statusRequest_busy _ (hd.busy hbusy)) hnone rfl
    exact ⟨.status, .status, Phase.status_holds htidy (statusRequest_shown _) (hd.dmaControl ▸ hw.select) rfl, hstatus,
      statusRequest_shown _, rfl⟩

end PicoV9k.Sasi
