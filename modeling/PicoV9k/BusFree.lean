import PicoV9k.HostAccesses

/-!
# Bus free

Whatever the host does, a controller with an idle bus has no command half done,
except that a data-out phase left by re-selection is not forgotten.
-/
namespace PicoV9k.Sasi
open PicoV9k.Bus PicoV9k.Storage PicoV9k.Mgmt PicoV9k.Runs

variable {Io σ : Type} {n : ℕ}

/-- No command state is left over. -/
structure Card.Clean (c : Card σ) : Prop where
  cmdBuffer : c.cmdBuffer = []
  statusPending : c.dma.statusPending = false
  nonDmaReq : c.dma.nonDmaReq = false
  dataOutExpected : c.dma.dataOutExpected = 0

/-- A write of CONTROL that lets SELECT fall. -/
def releases (c : Card σ) : FifoEvent → Bool
  | .write .control data =>
    !hasBit data dmaResetBit && (!hasBit data dmaSelectBit && hasBit c.dma.control dmaSelectBit)
  | _ => false

/-- The worker takes no falling SELECT while data-out bytes are expected. -/
def ListKept (b : Bridge σ n) : BusLabel Io σ → Prop
  | .worker _ => b.transfer = none → ∀ e ∈ b.queue.head?, releases b.card e.event = true →
      b.card.dma.dataOutExpected = 0
  | .fifo _ | .service _ => True

instance (b : Bridge σ n) : (label : BusLabel Io σ) → Decidable (ListKept b label)
  | .worker _ => inferInstanceAs (Decidable (b.transfer = none → ∀ e ∈ b.queue.head?, _ → _))
  | .fifo _ | .service _ => isTrue trivial

/-- What the state of the bus says about the command under way. -/
structure Controller.Tidy (k : Controller) (moving : Bool) : Prop where
  driven : k.busCtrl = 0 ∨ hasBit k.busCtrl sasiBsyBit = true
  top : hasBit k.busCtrl 0x80 = false
  select : hasBit k.busCtrl sasiSelBit = true → hasBit k.control dmaSelectBit = true
  free : k.busCtrl = 0 → k.nonDmaReq = false ∧ k.statusPending = false
  cdb : moving = false → k.cmdBuffer ≠ [] → k.busCtrl &&& phaseMask = sasiCtlBit
  list : k.dataOutExpected ≠ 0 → k.busCtrl &&& phaseMask = 0 ∧ k.busCtrl ≠ 0
  executing : moving = true → k.dataOutExpected = 0 ∧ busyBus k.busCtrl = true

lemma busyBus_bits : ∀ b : Byte, busyBus b = true →
    hasBit b sasiBsyBit = true ∧ hasBit b 0x80 = false ∧ hasBit b sasiSelBit = false ∧ b ≠ 0 := by
  decide

/-- A command is under way. -/
lemma Controller.Tidy.of_busy {k : Controller} {moving : Bool} (hb : busyBus k.busCtrl = true)
    (hl : k.dataOutExpected = 0)
    (hc : moving = false → k.cmdBuffer ≠ [] → k.busCtrl &&& phaseMask = sasiCtlBit) :
    k.Tidy moving := by
  obtain ⟨hbsy, htop, hsel, hne⟩ := busyBus_bits _ hb
  exact ⟨.inr hbsy, htop, fun h => absurd (hsel.symm.trans h) Bool.false_ne_true,
    fun h => absurd h hne, hc, fun h => absurd hl h, fun _ => ⟨hl, hb⟩⟩

/-- The status phase, with nothing else outstanding. -/
lemma Controller.Tidy.of_status {k : Controller} (hb : k.busCtrl = 0x0F) (hl : k.dataOutExpected = 0)
    (hc : k.cmdBuffer = []) : k.Tidy false := by
  have hbits : hasBit 0x0F sasiBsyBit = true ∧ hasBit 0x0F 0x80 = false ∧
    ¬ hasBit 0x0F sasiSelBit = true ∧ ¬ (0x0F : Byte) = 0 := by decide
  rw [← hb] at hbits
  exact ⟨.inr hbits.1, hbits.2.1, fun h => absurd h hbits.2.2.1, fun h => absurd h hbits.2.2.2,
    fun _ h => absurd hc h, fun h => absurd hl h, Bool.noConfusion⟩

/-- Bus free, with nothing outstanding. -/
lemma Controller.Tidy.of_free {k : Controller} (hb : k.busCtrl = 0) (hn : k.nonDmaReq = false)
    (hp : k.statusPending = false) (hl : k.dataOutExpected = 0) (hc : k.cmdBuffer = []) :
    k.Tidy false := by
  have hbits : hasBit 0 0x80 = false ∧ ¬ hasBit 0 sasiSelBit = true := by decide
  rw [← hb] at hbits
  exact ⟨.inl hb, hbits.1, fun h => absurd h hbits.2, fun _ => ⟨hn, hp⟩, fun _ h => absurd hc h,
    fun h => absurd hl h, Bool.noConfusion⟩

lemma messageAdded_bits : ∀ b : Byte,
    (hasBit b sasiBsyBit = true → hasBit (b ||| sasiMsgBit) sasiBsyBit = true) ∧
      hasBit (b ||| sasiMsgBit) 0x80 = hasBit b 0x80 ∧
      hasBit (b ||| sasiMsgBit) sasiSelBit = hasBit b sasiSelBit ∧ b ||| sasiMsgBit ≠ 0 := by
  decide

lemma phase_message : ∀ b : Byte, hasBit b sasiMsgBit = true →
    b &&& phaseMask ≠ sasiCtlBit ∧ b &&& phaseMask ≠ 0 := by decide

lemma phase_status : ∀ b : Byte, b &&& (sasiCtlBit ||| sasiInpBit) = sasiCtlBit ||| sasiInpBit →
    b &&& phaseMask ≠ sasiCtlBit ∧ b &&& phaseMask ≠ 0 ∧ b ≠ 0 := by decide

lemma deferProcessRead_tidy {c : Card σ} (h : c.controller.Tidy false) (target : Reg) :
    (deferProcessRead c target).controller.Tidy false := by
  have hcmd (hne : c.dma.busCtrl &&& phaseMask ≠ sasiCtlBit) : c.cmdBuffer = [] := by
    by_contra hb
    exact hne (h.cdb rfl hb)
  have hlist (hne : c.dma.busCtrl &&& phaseMask ≠ 0) : c.dma.dataOutExpected = 0 := by
    by_contra hb
    exact hne (h.list hb).1
  unfold deferProcessRead
  split
  · exact h
  · exact h
  · dsimp only
    split
    next hm =>
      obtain ⟨hp, hp'⟩ := phase_message _ hm
      exact .of_free rfl rfl rfl (hlist hp') (hcmd hp)
    next hm =>
      split
      next hs =>
        obtain ⟨hp, hp', hne⟩ := phase_status _ hs
        have hbits := messageAdded_bits c.dma.busCtrl
        split
        · refine ⟨.inr (hbits.1 (h.driven.resolve_left hne)), hbits.2.1.trans h.top,
            fun hsel => h.select (hbits.2.2.1.symm.trans hsel), fun h0 => absurd h0 hbits.2.2.2,
            fun _ hc => absurd (hcmd hp) hc, fun hl => absurd (hlist hp') hl, Bool.noConfusion⟩
        · exact h
      next hs =>
        split
        · exact ⟨h.driven, h.top, h.select, fun h0 => ⟨rfl, (h.free h0).2⟩, h.cdb, h.list, h.executing⟩
        · exact h
  · exact h

lemma raised_bits : ∀ b : Byte,
    hasBit (b ||| sasiSelBit ||| sasiBsyBit) sasiBsyBit = true ∧
      hasBit (b ||| sasiSelBit ||| sasiBsyBit) 0x80 = hasBit b 0x80 ∧
      (b ||| sasiSelBit ||| sasiBsyBit) &&& phaseMask = b &&& phaseMask ∧
      b ||| sasiSelBit ||| sasiBsyBit ≠ 0 := by
  decide

/-- The bus after SELECT fell. -/
def releasedBus (b : Byte) : Byte :=
  ((b &&& ~~~sasiSelBit) ||| (sasiBsyBit ||| sasiReqBit ||| sasiCtlBit)) &&& ~~~sasiInpBit

lemma releasedBus_bits : ∀ b : Byte,
    hasBit (releasedBus b) sasiBsyBit = true ∧ hasBit (releasedBus b) 0x80 = hasBit b 0x80 ∧
      hasBit (releasedBus b) sasiSelBit = false ∧
      (b &&& phaseMask = sasiCtlBit → releasedBus b &&& phaseMask = sasiCtlBit) ∧ releasedBus b ≠ 0 := by
  decide

lemma deferProcessControl_tidy {c : Card σ} (h : c.controller.Tidy false) (data : Byte)
    (hl : releases c (.write .control data) = true → c.dma.dataOutExpected = 0) :
    (deferProcessControl c data).controller.Tidy false := by
  by_cases hr : hasBit data dmaResetBit = true
  · rw [deferProcessControl_reset c hr]
    exact .of_free rfl rfl rfl rfl rfl
  have hr' := Bool.eq_false_iff.mpr hr
  by_cases hsame : hasBit data dmaSelectBit = hasBit c.dma.control dmaSelectBit
  · rw [deferProcessControl_configure hr' hsame]
    exact ⟨h.driven, h.top, fun hs => hsame.trans (h.select hs), h.free, h.cdb, h.list, h.executing⟩
  cases hd : hasBit data dmaSelectBit with
  | true =>
    have hc : hasBit c.dma.control dmaSelectBit = false :=
      Bool.eq_false_iff.mpr fun ht => hsame (hd.trans ht.symm)
    rw [deferProcessControl_select hr' hd hc]
    obtain ⟨hbsy, htop, hphase, hne⟩ := raised_bits c.dma.busCtrl
    exact ⟨.inr hbsy, htop.trans h.top, fun _ => hd, fun h0 => absurd h0 hne,
      fun hm hb => hphase.trans (h.cdb hm hb), fun hl => ⟨hphase.trans (h.list hl).1, hne⟩,
      Bool.noConfusion⟩
  | false =>
    have hc : hasBit c.dma.control dmaSelectBit = true := by
      by_contra hf
      exact hsame (hd.trans (Bool.eq_false_iff.mpr hf).symm)
    have hfalls : releases c (.write .control data) = true := by
      simp only [releases, hr', hd, hc]
      rfl
    rw [deferProcessControl_release hr' hd hc]
    obtain ⟨hbsy, htop, hsel, hphase, hne⟩ := releasedBus_bits c.dma.busCtrl
    exact ⟨.inr hbsy, htop.trans h.top, fun hs => absurd (hsel.symm.trans hs) Bool.false_ne_true,
      fun h0 => absurd h0 hne, fun hm hb => hphase (h.cdb hm hb),
      fun hne' => absurd (hl hfalls) hne', Bool.noConfusion⟩

/-- The bus once a DATA byte was accepted. -/
def acceptedBus (control bus : Byte) (req : Bool) : Byte :=
  let bus := if hasBit control dmaSelectBit then bus &&& ~~~sasiSelBit else bus
  if req && !hasBit bus sasiInpBit then acknowledged bus else bus

lemma acceptDataByte_bus (c : Card σ) (data : Byte) :
    (acceptDataByte c data).dma.busCtrl = acceptedBus c.dma.control c.dma.busCtrl c.dma.nonDmaReq ∧
      ((acceptDataByte c data).dma.nonDmaReq = true → c.dma.nonDmaReq = true) := by
  unfold acceptDataByte acceptedBus
  dsimp only
  cases hasBit c.dma.control dmaSelectBit with
  | true =>
    simp only [if_true]
    split
    · exact ⟨rfl, Bool.noConfusion⟩
    · exact ⟨rfl, id⟩
  | false =>
    simp only [Bool.false_eq_true, if_false]
    split
    · exact ⟨rfl, Bool.noConfusion⟩
    · exact ⟨rfl, id⟩

lemma deselected_bits : ∀ b : Byte, hasBit (b &&& ~~~sasiSelBit) 0x80 = hasBit b 0x80 ∧
    hasBit (b &&& ~~~sasiSelBit) sasiBsyBit = hasBit b sasiBsyBit ∧
    hasBit (b &&& ~~~sasiSelBit) sasiSelBit = false ∧
    (b &&& ~~~sasiSelBit) &&& phaseMask = b &&& phaseMask := by decide

lemma acknowledged_bits : ∀ b : Byte, hasBit (acknowledged b) 0x80 = hasBit b 0x80 ∧
    hasBit (acknowledged b) sasiBsyBit = hasBit b sasiBsyBit ∧
    hasBit (acknowledged b) sasiSelBit = hasBit b sasiSelBit ∧
    acknowledged b &&& phaseMask = b &&& phaseMask := by decide

/-- SELECT leaves the bus and nothing else of importance changes. -/
lemma acceptedBus_bits (control bus : Byte) (req : Bool)
    (hsel : hasBit bus sasiSelBit = true → hasBit control dmaSelectBit = true) :
    hasBit (acceptedBus control bus req) 0x80 = hasBit bus 0x80 ∧
      hasBit (acceptedBus control bus req) sasiBsyBit = hasBit bus sasiBsyBit ∧
      hasBit (acceptedBus control bus req) sasiSelBit = false ∧
      acceptedBus control bus req &&& phaseMask = bus &&& phaseMask := by
  have hmid : ∃ b, (if hasBit control dmaSelectBit then bus &&& ~~~sasiSelBit else bus) = b ∧
      hasBit b 0x80 = hasBit bus 0x80 ∧ hasBit b sasiBsyBit = hasBit bus sasiBsyBit ∧
      hasBit b sasiSelBit = false ∧ b &&& phaseMask = bus &&& phaseMask := by
    by_cases hc : hasBit control dmaSelectBit = true
    · exact ⟨_, if_pos hc, deselected_bits bus⟩
    · exact ⟨_, if_neg hc, rfl, rfl, Bool.eq_false_iff.mpr fun h => hc (hsel h), rfl⟩
  obtain ⟨b, hb, htop, hbsy, hs, hp⟩ := hmid
  unfold acceptedBus
  dsimp only
  rw [hb]
  split
  · obtain ⟨htop', hbsy', hs', hp'⟩ := acknowledged_bits b
    exact ⟨htop'.trans htop, hbsy'.trans hbsy, hs'.trans hs, hp'.trans hp⟩
  · exact ⟨htop, hbsy, hs, hp⟩

lemma hasBit_zero : hasBit 0 sasiBsyBit = false := by decide

lemma acceptedBus_zero (control : Byte) : acceptedBus control 0 false = 0 := by
  unfold acceptedBus
  dsimp only
  split <;> rfl

/-- An accepted byte keeps the controller tidy, and SELECT is off the bus. -/
lemma acceptDataByte_tidy {c : Card σ} (h : c.controller.Tidy false) (data : Byte) :
    (acceptDataByte c data).controller.Tidy false ∧
      hasBit (acceptDataByte c data).dma.busCtrl sasiSelBit = false := by
  obtain ⟨_, hlist, hcmd, hcontrol, hpending⟩ := acceptDataByte_kept c data
  obtain ⟨hbus, hreq⟩ := acceptDataByte_bus c data
  obtain ⟨htop, hbsy, hsel, hphase⟩ := acceptedBus_bits c.dma.control c.dma.busCtrl c.dma.nonDmaReq h.select
  rw [← hbus] at htop hbsy hsel hphase
  have hzero (h0 : (acceptDataByte c data).dma.busCtrl = 0) : c.dma.busCtrl = 0 := by
    refine h.driven.resolve_right fun hb => ?_
    rw [h0, hasBit_zero] at hbsy
    exact Bool.false_ne_true (hbsy.trans hb)
  have hdriven : (acceptDataByte c data).dma.busCtrl = 0 ∨
      hasBit (acceptDataByte c data).dma.busCtrl sasiBsyBit = true := by
    rcases h.driven with h0 | hb
    · have hfree : c.dma.nonDmaReq = false := (h.free h0).1
      have h0' : c.dma.busCtrl = 0 := h0
      rw [hbus, h0', hfree]
      exact .inl (acceptedBus_zero _)
    · exact .inr (hbsy.trans hb)
  refine ⟨⟨hdriven, htop.trans h.top, fun hs => absurd (hsel.symm.trans hs) Bool.false_ne_true,
    fun h0 => ⟨?_, hpending.trans (h.free (hzero h0)).2⟩,
    fun _ hc => hphase.trans (h.cdb rfl fun hb => hc (hcmd.trans hb)), fun hl => ?_,
    Bool.noConfusion⟩, hsel⟩
  · have hfree : c.dma.nonDmaReq = false := (h.free (hzero h0)).1
    exact Bool.eq_false_iff.mpr fun hr => Bool.false_ne_true (hfree.symm.trans (hreq hr))
  · have hl' : c.dma.dataOutExpected ≠ 0 := fun h0 => hl (hlist.trans h0)
    exact ⟨hphase.trans (h.list hl').1, fun h0 => (h.list hl').2 (hzero h0)⟩

lemma commandRequest_bits : ∀ b : Byte, hasBit (commandRequest b) sasiBsyBit = true ∧
    hasBit (commandRequest b) 0x80 = hasBit b 0x80 ∧
    hasBit (commandRequest b) sasiSelBit = hasBit b sasiSelBit ∧
    commandRequest b &&& phaseMask = sasiCtlBit ∧ commandRequest b ≠ 0 := by decide

lemma dataOutRequest_bits : ∀ b : Byte, hasBit (dataOutRequest b) sasiBsyBit = true ∧
    hasBit (dataOutRequest b) 0x80 = hasBit b 0x80 ∧
    hasBit (dataOutRequest b) sasiSelBit = hasBit b sasiSelBit ∧
    dataOutRequest b &&& phaseMask = 0 ∧ dataOutRequest b ≠ 0 := by decide

lemma statusRequest_bits : ∀ b : Byte, hasBit (statusRequest b) sasiBsyBit = true ∧
    hasBit (statusRequest b) 0x80 = hasBit b 0x80 ∧
    hasBit (statusRequest b) sasiSelBit = hasBit b sasiSelBit ∧ statusRequest b ≠ 0 := by decide

/-- In the command phase without SELECT a command can begin. -/
lemma command_busy : ∀ b : Byte, b &&& phaseMask = sasiCtlBit → hasBit b sasiSelBit = false →
    hasBit b 0x80 = false → hasBit b sasiBsyBit = true → busyBus b = true := by decide

lemma phase_zero : ¬ (0 : Byte) &&& phaseMask = sasiCtlBit ∧ ¬ (0 : Byte) = sasiCtlBit := by decide

lemma Routed.tidy {c : Card σ} {cdb : List Byte} {r : Card σ × Option Transfer} (h : Routed c cdb r)
    (hb : busyBus c.dma.busCtrl = true) (hl : c.dma.dataOutExpected = 0) :
    (afterRoute r).1.controller.Tidy (afterRoute r).2.isSome := by
  have hlist {d : Card σ} (hc : Executed (c.recordRouted cdb) d) : d.dma.dataOutExpected = 0 :=
    (congrArg Registers.dataOutExpected hc.dma :).trans hl
  cases h with
  | moving hop hc hlog haddr => exact .of_busy (hc.busy hb) (hlist hc) Bool.noConfusion
  | completed b hop hc =>
    have hnone := hlist hc
    exact .of_status (statusRequest_busy _ (hc.busy hb)) hnone rfl
  | expecting hop =>
    have hbus : dataOutRequest c.dma.busCtrl = 0x0C := dataOutRequest_busy _ hb
    obtain ⟨hbsy, htop, hsel, hphase, hne⟩ := dataOutRequest_bits c.dma.busCtrl
    obtain ⟨_, htop', hsel', _⟩ := busyBus_bits _ hb
    exact ⟨.inr hbsy, htop.trans htop', fun hs => absurd ((hsel.trans hsel').symm.trans hs)
      Bool.false_ne_true, fun h0 => absurd h0 hne, fun _ hc => absurd rfl hc, fun _ => ⟨hphase, hne⟩,
      Bool.noConfusion⟩

lemma handleSasiDataOutByte_tidy {c : Card σ} (h : c.controller.Tidy false)
    (hl : 0 < c.dma.dataOutExpected) (data : Byte) :
    (handleSasiDataOutByte c data).controller.Tidy false := by
  have hphase : c.dma.busCtrl &&& phaseMask = 0 := (h.list (Nat.pos_iff_ne_zero.mp hl)).1
  have hcmd : c.cmdBuffer = [] := by
    by_contra hc
    exact phase_zero.2 (hphase.symm.trans (h.cdb rfl hc))
  unfold handleSasiDataOutByte
  dsimp only
  rw [if_neg (Nat.pos_iff_ne_zero.mp hl)]
  split
  · obtain ⟨hbsy, htop, hsel, hphase', hne⟩ := dataOutRequest_bits c.dma.busCtrl
    exact ⟨.inr hbsy, htop.trans h.top, fun hs => h.select (hsel.symm.trans hs), fun h0 => absurd h0 hne,
      fun _ hc => absurd hcmd hc, fun _ => ⟨hphase', hne⟩, Bool.noConfusion⟩
  · obtain ⟨hbsy, htop, hsel, hne⟩ := statusRequest_bits c.dma.busCtrl
    exact ⟨.inr hbsy, htop.trans h.top, fun hs => h.select (hsel.symm.trans hs), fun h0 => absurd h0 hne,
      fun _ hc => absurd hcmd hc, fun hl' => absurd rfl hl', Bool.noConfusion⟩

/-- A DATA byte, whatever the controller was doing. -/
lemma DataTaken.tidy {c : Card σ} {seenAt : ℕ} {data : Byte} {r : Card σ × Option Transfer}
    (h : DataTaken c seenAt data r) (ht : c.controller.Tidy false)
    (hsel : hasBit c.dma.busCtrl sasiSelBit = false) : r.1.controller.Tidy r.2.isSome := by
  have hlist (hp : c.dma.busCtrl &&& phaseMask = sasiCtlBit) : c.dma.dataOutExpected = 0 := by
    by_contra hl
    exact phase_zero.2 ((ht.list hl).1.symm.trans hp)
  cases h with
  | more hp hlen =>
    obtain ⟨hbsy, htop, hs, hphase, hne⟩ := commandRequest_bits c.dma.busCtrl
    exact ⟨.inr hbsy, htop.trans ht.top, fun h => absurd ((hs.trans hsel).symm.trans h)
      Bool.false_ne_true, fun h0 => absurd h0 hne, fun _ _ => hphase, fun hl => absurd (hlist hp) hl,
      Bool.noConfusion⟩
  | whole hp hr =>
    have hdriven : hasBit c.dma.busCtrl sasiBsyBit = true := by
      refine ht.driven.resolve_left fun h0 => phase_zero.1 ?_
      have h0' : c.dma.busCtrl = 0 := h0
      rw [← h0']
      exact hp
    exact hr.tidy (command_busy _ hp hsel ht.top hdriven) (hlist hp)
  | list hp hl => exact handleSasiDataOutByte_tidy ht hl data
  | ignored hp hl => exact ht

lemma deferProcessEntry_tidy (io : SectorIo Io) {c : Card σ} {e : Entry} (h : c.controller.Tidy false)
    (hl : releases c e.event = true → c.dma.dataOutExpected = 0) :
    (deferProcessEntry io c e).1.controller.Tidy (deferProcessEntry io c e).2.isSome := by
  obtain ⟨event, seenAt⟩ := e
  cases event with
  | readCommit target => exact deferProcessRead_tidy h target
  | write target data =>
    cases target with
    | control => exact deferProcessControl_tidy h data hl
    | data =>
      obtain ⟨htidy, hsel⟩ := acceptDataByte_tidy h data
      exact (deferProcessData_taken io c seenAt data).tidy htidy hsel
    | _ => exact h
  | _ => exact h

lemma Boundary.tidy {c : Card σ} {r : Card σ × Option Transfer} (b : Bridge σ n)
    (h : Boundary c r) (ht : c.controller.Tidy true) :
    (b.afterBoundary r).card.controller.Tidy (b.afterBoundary r).transfer.isSome := by
  obtain ⟨hl, hbusy⟩ := ht.executing rfl
  cases h with
  | abandoned hreset => exact .of_busy hbusy hl fun _ hc => absurd rfl hc
  | moved hreset hc haddr =>
    exact .of_busy (hc.busy hbusy) ((congrArg Registers.dataOutExpected hc.dma :).trans hl)
      Bool.noConfusion
  | completed s hreset hc =>
    have hnone := (congrArg Registers.dataOutExpected hc.dma :).trans hl
    exact .of_status (statusRequest_busy _ (hc.busy hbusy)) hnone rfl

/-- The controller is tidy and the worker moves sectors inside the address space. -/
structure Bridge.Orderly (b : Bridge σ n) : Prop where
  tidy : b.card.controller.Tidy b.transfer.isSome
  addressed : b.Addressed

theorem Bridge.Orderly.step {reg : Registry Io σ} {b b' : Bridge σ n} {label : BusLabel Io σ}
    (h : b.Orderly) (hk : ListKept b label) (hs : b.step reg label = some b') : b'.Orderly := by
  cases label with
  | fifo event =>
    cases hs
    refine ⟨?_, ?_⟩
    · rw [isr_controller, isr_transfer]
      exact h.tidy
    · unfold Bridge.Addressed
      rw [isr_transfer]
      exact h.addressed
  | worker io =>
    have hw := workerStep_worked reg h.addressed hs
    refine ⟨?_, hw.addressed⟩
    have htidy := h.tidy
    cases hw with
    | boundary ht hr =>
      rw [ht] at htidy
      exact hr.tidy b htidy
    | @entry e rest ht hq =>
      rw [ht] at htidy
      exact deferProcessEntry_tidy io htidy (hk ht e (hq ▸ rfl))
  | service storage =>
    unfold Bridge.step Bridge.service at hs
    dsimp only at hs
    split at hs
    · cases hs
      exact ⟨h.tidy, h.addressed⟩
    · cases hs

lemma Controller.Tidy.clean {c : Card σ} (h : c.controller.Tidy false) (h0 : c.dma.busCtrl = 0) :
    c.Clean := by
  obtain ⟨hreq, hpending⟩ := h.free h0
  refine ⟨?_, hpending, hreq, ?_⟩
  · by_contra hc
    have hphase : c.dma.busCtrl &&& phaseMask = sasiCtlBit := h.cdb rfl hc
    rw [h0] at hphase
    exact phase_zero.1 hphase
  · by_contra hl
    exact (h.list hl).2 h0

/-- On an idle bus a DATA byte only sets the command latch, and under SELECT the target. -/
def Card.targetByte (c : Card σ) (data : Byte) : Card σ :=
  { c with dma := { c.dma with
      command := data
      selectedTarget :=
        if hasBit c.dma.control dmaSelectBit then sasiExtractTargetId data else c.dma.selectedTarget } }

lemma Card.Clean.accepted {c : Card σ} (h : c.Clean) (h0 : c.dma.busCtrl = 0) (data : Byte) :
    acceptDataByte c data = c.targetByte data := by
  have hzero : (0 : Byte) &&& ~~~sasiSelBit = 0 := by decide
  have hoff (b : Bool) : ¬ (c.dma.nonDmaReq && b) = true := by
    rw [h.nonDmaReq]
    exact Bool.false_ne_true
  unfold acceptDataByte Card.targetByte
  dsimp only
  split
  · rw [if_neg (hoff _), h0, hzero]
  · rw [if_neg (hoff _)]

theorem Card.Clean.takes {c : Card σ} (h : c.Clean) (h0 : c.dma.busCtrl = 0) (io : SectorIo Io)
    (seenAt : ℕ) (data : Byte) : deferProcessData io c seenAt data = (c.targetByte data, none) := by
  have hbus : (c.targetByte data).dma.busCtrl = 0 := h0
  have hlist : (c.targetByte data).dma.dataOutExpected = 0 := h.dataOutExpected
  unfold deferProcessData
  dsimp only
  rw [h.accepted h0, hbus, if_neg phase_zero.1, hlist, if_neg (Nat.lt_irrefl 0)]

/-- While no pending data-out phase is left by selecting again, an idle bus has nothing left over. -/
theorem busFree_clean (reg : Registry Io σ) {ram : ℕ → Byte} {storage : Routing σ}
    {chan : MgmtChan n} {labels : List (BusLabel Io σ)} {b : Bridge σ n}
    (h : Guarded (Bridge.step reg) ListKept (.initial ram storage chan) labels b)
    (hidle : b.transfer = none) (hfree : b.card.dma.busCtrl = 0) :
    b.card.Clean ∧ ∀ (io : SectorIo Io) seenAt data,
      deferProcessData io b.card seenAt data = (b.card.targetByte data, none) := by
  have hstep (s : Bridge σ n) (label : BusLabel Io σ) (s' : Bridge σ n) (hv : s.Orderly)
      (hk : ListKept s label) (hs : s.step reg label = some s') : s'.Orderly := hv.step hk hs
  have hstart : (Bridge.initial ram storage chan).Orderly :=
    ⟨.of_free rfl rfl rfl rfl rfl, fun t ht => by cases ht⟩
  have htidy := (h.invariant hstep hstart).tidy
  rw [hidle] at htidy
  have hclean := htidy.clean hfree
  exact ⟨hclean, fun io => hclean.takes hfree io⟩

/-- Accesses the worker keeps up with. -/
def paced (events : List FifoEvent) : List (BusLabel Unit Unit) :=
  events.flatMap fun event => [.fifo event, .worker ⟨(), fun _ => .ok⟩]

/-- A selection, a command and the two reads that end it. -/
def commandAccesses (cdb : List Byte) : List FifoEvent :=
  [.write .control 0x10, .write .control 0x00] ++ cdb.map (.write .data)

def idleRun : List (BusLabel Unit Unit) :=
  paced (commandAccesses [0, 0, 0, 0, 0, 0] ++ [.readCommit .data, .readCommit .data])

theorem busFree_clean_idle :
    ∃ b, followBus ListKept idleRun = some b ∧ b.card.dma.busCtrl = 0 ∧ b.card.Clean := by
  obtain ⟨b, hb⟩ : ∃ b, followBus ListKept idleRun = some b := Option.isSome_iff_exists.mp rfl
  have hidle : (followBus ListKept idleRun).map (·.transfer.isNone) = some true := rfl
  have hfree : (followBus ListKept idleRun).map (·.card.dma.busCtrl) = some 0 := rfl
  rw [hb] at hidle hfree
  have hidle' : b.transfer = none := Option.isNone_iff_eq_none.mp (Option.some.inj hidle)
  have hfree' : b.card.dma.busCtrl = 0 := Option.some.inj hfree
  exact ⟨b, hb, hfree', (busFree_clean _ (Guarded.of_follow hb) hidle' hfree').1⟩

/-- SET DRIVE PARAMS without DMA, left by selecting again, and a whole TEST UNIT READY. -/
def abandonedList : List (BusLabel Unit Unit) :=
  paced (commandAccesses [0x0C, 0, 0, 0, 0, 0] ++ commandAccesses [0, 0, 0, 0, 0, 0] ++
    [.readCommit .data, .readCommit .data])

/-- The eight parameter bytes are still expected on the idle bus. -/
theorem busFree_dataOutExpected :
    ∃ b, Run (Bridge.step fun _ => none) bareBridge abandonedList b ∧ b.transfer = none ∧
      b.card.dma.busCtrl = 0 ∧ b.card.dma.dataOutExpected = 8 := by
  obtain ⟨b, hb⟩ : ∃ b, followBus (fun _ _ => True) abandonedList = some b :=
    Option.isSome_iff_exists.mp rfl
  have hrun := congrArg (Option.map fun b => (b.transfer.isNone, b.card.dma.busCtrl,
    b.card.dma.dataOutExpected)) hb
  have hend : (followBus (fun _ _ => True) abandonedList).map (fun b => (b.transfer.isNone,
    b.card.dma.busCtrl, b.card.dma.dataOutExpected)) = some (true, 0, 8) := rfl
  rw [hend] at hrun
  have hb' := Option.some.inj hrun
  exact ⟨b, Guarded.of_follow hb, Option.isNone_iff_eq_none.mp (congrArg Prod.fst hb').symm,
    (congrArg (·.2.1) hb').symm, (congrArg (·.2.2) hb').symm⟩

end PicoV9k.Sasi
